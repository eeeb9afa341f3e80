import Unarddeg.Modules.Ide.Errors
import Unarddeg.Modules.Ide.Packets

/-!
# Sectors over the ports

`IDEReadSectors` and `IDEWriteSectors` with the devices behind their ports. Each call returns, and
does what the drives do that are a store of sectors with faults; so every run of calls, on any of
the four drives, is a run of such drives (`sectors_refine`).
-/

namespace Unarddeg.Ide

open Library

namespace Bus

/-! ## Presence -/

section Presence

variable {bus after : Bus} {drive : Fin 4} {device : AtaDevice} {dev : Entry}
  {writes : List (Nat × BitVec 8)}

/-- The register that `IsDrivePresent` writes. -/
def selecting (dev : Entry) : List (Nat × BitVec 8) :=
  [(6, 0xA0 ||| (BitVec.ofNat 8 dev.drive <<< 4))]

/-- It selects the drive. -/
theorem selecting_selects (slavebit : Fin 2) :
    (if (0xA0 ||| (BitVec.ofNat 8 slavebit <<< 4) : BitVec 8).getLsbD 4 then 1 else 0) =
      slavebit := by
  revert slavebit
  decide

/-- The register is written. -/
theorem ideWrite_selecting (free : Free (bus.channel dev.channel)) :
    ideWrite dev.channel ataRegHddevsel (0xA0 ||| (BitVec.ofNat 8 dev.drive <<< 4)) bus =
      .ok () (bus.chosen dev (selecting dev)) := by
  rw [ideWrite_ok, taskWrites_outReg, if_pos (by decide)]
  simp only [outAll, List.foldl_cons, List.foldl_nil, ataRegHddevsel]
  rw [out_select free, selecting_selects]
  rfl

/-- A device that takes registers is not busy. -/
theorem busy_of_free (free : device.engaged = false) : device.busy = 0 := by
  unfold AtaDevice.engaged at free
  simp only [Bool.or_eq_false_iff, decide_eq_false_iff_not] at free
  omega

/-- A device that takes registers shows that it is there. -/
theorem status_answers (free : device.engaged = false) :
    ¬ (device.status = 0xFF ∨ device.status = 0x00) := by
  unfold AtaDevice.status
  rw [if_neg (by rw [busy_of_free free]; decide)]
  split
  all_goals decide

/-- A drive without an entry is not there. -/
theorem isDrivePresent_unreserved (unreserved : (bus.ideDev drive).reserved = 0) :
    isDrivePresent drive bus = .ok false bus := by
  unfold isDrivePresent
  rw [bind_of_ok (get_ok.mpr ⟨rfl, rfl⟩), if_pos unreserved]
  rfl

/-- A drive with a device is there. -/
theorem isDrivePresent_there (reserved : (bus.ideDev drive).reserved ≠ 0)
    (free : Free (bus.channel (bus.ideDev drive).channel))
    (there : (bus.channel (bus.ideDev drive).channel).device (bus.ideDev drive).drive =
      some device) :
    isDrivePresent drive bus =
      .ok true (bus.chosen (bus.ideDev drive) (selecting (bus.ideDev drive))) := by
  have selected := @chosen_selected bus device (selecting (bus.ideDev drive)) _ there
  have ready : (refile (selecting (bus.ideDev drive)) device).engaged = false :=
    free _ device there
  have polled : (refile (selecting (bus.ideDev drive)) device).polled =
      refile (selecting (bus.ideDev drive)) device := by
    rw [← calm_of_zero (busy_of_free ready), polled_calm]
  unfold isDrivePresent
  rw [bind_of_ok (get_ok.mpr ⟨rfl, rfl⟩), if_neg reserved, bind_of_ok (ideWrite_selecting free),
    bind_of_ok (ideRead_status selected), polled, selected.put_self,
    decide_eq_true (status_answers ready)]
  rfl

/-- No device is selected at a place without one. -/
theorem chosen_nothing (missing : (bus.channel dev.channel).device dev.drive = none) :
    ((bus.chosen dev writes).channel dev.channel).device
      ((bus.chosen dev writes).channel dev.channel).selected = none := by
  simp [chosen, wire, filed, missing]

/-- Every register reads there as the lines do without a device. -/
theorem ideRead_missing (missing : (bus.channel dev.channel).device dev.drive = none)
    {register : Nat} (low : register < 8) :
    ideRead dev.channel register (bus.chosen dev writes) =
      .ok (bus.channel dev.channel).absent (bus.chosen dev writes) := by
  have absent : ((bus.chosen dev writes).channel dev.channel).absent =
      (bus.channel dev.channel).absent := by
    simp [chosen, wire, filed]
  have read : ((bus.chosen dev writes).channel dev.channel).read register =
      ((bus.channel dev.channel).absent, (bus.chosen dev writes).channel dev.channel) := by
    unfold Channel.read
    rw [chosen_nothing missing, absent]
  have base := @ideRead_base (bus.chosen dev writes) dev.channel register low
  rw [read, wire_self] at base
  exact base

/-- Nor does a command reach a device. -/
theorem ideWrite_missing (missing : (bus.channel dev.channel).device dev.drive = none)
    (command : BitVec 8) : ideWrite dev.channel ataRegCommand command (bus.chosen dev writes) =
      .ok () (bus.chosen dev writes) := by
  have still : ((bus.chosen dev writes).channel dev.channel).out 7 command =
      (bus.chosen dev writes).channel dev.channel := by
    unfold Channel.out Channel.engaged
    rw [chosen_nothing missing]
    rfl
  rw [ideWrite_ok, taskWrites_outReg, if_pos (by decide)]
  simp only [outAll, List.foldl_cons, List.foldl_nil]
  rw [show ataRegCommand = 7 from rfl, still, wire_self]

/-- A drive without a device is not there. -/
theorem isDrivePresent_missing (reserved : (bus.ideDev drive).reserved ≠ 0)
    (free : Free (bus.channel (bus.ideDev drive).channel))
    (missing : (bus.channel (bus.ideDev drive).channel).device (bus.ideDev drive).drive = none)
    (absent : (bus.channel (bus.ideDev drive).channel).absent = 0xFF ∨
      (bus.channel (bus.ideDev drive).channel).absent = 0x00) :
    isDrivePresent drive bus =
      .ok false (bus.chosen (bus.ideDev drive) (selecting (bus.ideDev drive))) := by
  unfold isDrivePresent
  rw [bind_of_ok (get_ok.mpr ⟨rfl, rfl⟩), if_neg reserved, bind_of_ok (ideWrite_selecting free),
    bind_of_ok (ideRead_missing missing (by decide)), decide_eq_false (not_not.mpr absent)]
  rfl

/-- Selecting a drive changes no contents. -/
theorem contents_selected : (bus.chosen dev writes).contents = bus.contents := by
  funext ⟨channel, place⟩
  by_cases same : channel = dev.channel
  · subst same
    simp only [contents, chosen, wire, Function.update_self, filed, Option.map_map]
    rfl
  · simp [contents, chosen, wire, Function.update_of_ne same]

/-- Nor anything else. -/
theorem keeps_selected : Keeps bus (bus.chosen dev writes) := by
  refine ⟨fun free channel => ?_, fun channel => ?_, rfl, rfl⟩
  · by_cases same : channel = dev.channel
    · subst same
      simp only [chosen, wire, Function.update_self]
      exact (free _).filed
    · simp only [chosen, wire, Function.update_of_ne same]
      exact free channel
  · by_cases same : channel = dev.channel
    · subst same
      simp only [chosen, wire, Function.update_self]
      rfl
    · simp only [chosen, wire, Function.update_of_ne same]

end Presence

/-! ## Results -/

/-- `package[0]` after a fault. -/
def printed : Fault → BitVec 8
  | .error register => errorCode register
  | .broken => 19
  | .nothing => 23

/-- `package[0]` after a transfer. -/
def printedCode : Option Fault → BitVec 8
  | none => 0
  | some fault => printed fault

section Results

variable {bus : Bus} {drive : Fin 4} {last : AtaDevice} {fault : Fault}

/-- An error register has a code. -/
theorem errorCode_ne_zero (register : BitVec 8) : errorCode register ≠ 0 := by
  -- By induction on the tests: none of them sets the code to zero.
  have all : ∀ (codes : List (BitVec 8 × BitVec 8)) (err : BitVec 8), err ≠ 0 →
      (∀ code ∈ codes, code.2 ≠ 0) →
      codes.foldl (fun err code => if register &&& code.1 ≠ 0 then code.2 else err) err ≠ 0 := by
    intro codes
    induction codes with
    | nil => exact fun err some _ => some
    | cons code codes ih =>
      intro err some codesSome
      refine ih _ ?_ fun other member => codesSome other (List.mem_cons_of_mem _ member)
      dsimp only
      split_ifs
      · exact codesSome code List.mem_cons_self
      · exact some
  exact all errorCodes 2 (by decide) (by simp [errorCodes])

/-- A fault is never taken for a success. -/
theorem printedCode_ne_zero : printedCode (some fault) ≠ 0 := by
  cases fault with
  | error register => exact errorCode_ne_zero register
  | broken => exact (by decide : (19 : BitVec 8) ≠ 0)
  | nothing => exact (by decide : (23 : BitVec 8) ≠ 0)

/-- The result of a transfer is printed; an error is read from its device. -/
theorem idePrintErr_ok {first : Option Fault}
    (selected : bus.Selected (bus.ideDev drive).channel last)
    (failed : ∀ fault, first = some fault → last.phase = .failed fault) :
    idePrintErr drive (resultCode first) bus = .ok (printedCode first) bus := by
  cases first with
  | none => rfl
  | some fault =>
    cases fault with
    | error register =>
      have error : last.error = register := by
        rw [AtaDevice.error, failed _ rfl]
      have read := ideRead_error selected
      rw [error] at read
      have code : resultCode (some (.error register)) = 2 := rfl
      rw [code, idePrintErr, if_neg (by decide), if_neg (by decide), if_pos rfl,
        bind_of_ok (get_ok.mpr ⟨rfl, rfl⟩), bind_of_ok read]
      rfl
    | broken => rfl
    | nothing => rfl

end Results

/-! ## Drives and devices -/

/-- Where the device of a drive is. -/
def place (bus : Bus) (drive : Fin 4) : Fin 2 × Fin 2 :=
  ((bus.ideDev drive).channel, (bus.ideDev drive).drive)

/-- The channels and the entries belong together, as `IDEInitialise` leaves them. -/
structure Wired (bus : Bus) : Prop where
  /-- No two entries are for one device. -/
  apart : ∀ drive other, (bus.ideDev drive).reserved ≠ 0 → (bus.ideDev other).reserved ≠ 0 →
    bus.place drive = bus.place other → drive = other
  /-- Lines without a device read as ones, or as zeros. -/
  absent : ∀ channel, (bus.channel channel).absent = 0xFF ∨ (bus.channel channel).absent = 0x00
  /-- The entries have the types of their devices. The disc in a drive that takes packets has no
  faults. -/
  type : ∀ drive medium sectors, (bus.ideDev drive).reserved ≠ 0 →
    bus.contents (bus.place drive) = some (medium, sectors) →
    ((bus.ideDev drive).type = ideAta ∧ medium.atapi = false) ∨
      ((bus.ideDev drive).type = ideAtapi ∧ medium.atapi = true ∧
        ∀ lba, medium.readFault lba = none)
  /-- A drive without addresses of 28 bits is no larger than its geometry. -/
  addressable : ∀ drive, (bus.ideDev drive).capabilities &&& 0x200 ≠ 0 ∨
    (bus.ideDev drive).size.toNat ≤ 65536 * 16 * 63

/-- A drive and its device hold the same. -/
def Holds (bus : Bus) (drives : Drives) (drive : Fin 4) :
    Option (Medium × (Nat → Nat → BitVec 8)) → Prop
  | none => drives.status drive = (bus.channel (bus.ideDev drive).channel).absent
  | some (_, sectors) => ¬ (drives.status drive = 0xFF ∨ drives.status drive = 0x00) ∧
    ∀ lba : BitVec 32, drives.sector drive lba = sectors lba.toNat

/-- The devices look like drives that are a store of sectors. -/
structure Shows (bus : Bus) (drives : Drives) : Prop where
  /-- The entries are the same. -/
  ideDev : ∀ drive, (bus.ideDev drive).toIDEDev = drives.ideDev drive
  /-- The result of the last transfer is the same. -/
  package : bus.package = drives.package
  /-- All devices take registers. -/
  free : ∀ channel, Free (bus.channel channel)
  /-- The drives hold what the devices hold. -/
  holds : ∀ drive, (bus.ideDev drive).reserved ≠ 0 →
    Holds bus drives drive (bus.contents (bus.place drive))

/-- What the device of a drive is made of. -/
def medium (bus : Bus) (drive : Fin 4) : Option Medium :=
  (bus.contents (bus.place drive)).map Prod.fst

/-- What goes wrong with the sectors of a device. A transfer of one sector that fails leaves the
buffer as it was. -/
def deviceErrors (medium : Option Medium) (buffer : Nat → BitVec 8) : DeviceErrors where
  reads :=
    { result := fun lba => printedCode (medium.bind fun medium => medium.readFault lba.toNat)
      torn := fun _ => buffer }
  refused := fun lba => (medium.bind fun medium => medium.writeFault lba.toNat).isSome

/-- The bus with another result. -/
def report (bus : Bus) (package : BitVec 8) : Bus := { bus with package }

section Drives

variable {bus after : Bus} {drives : Drives} {drive : Fin 4} {medium : Medium}
  {sectors : Nat → Nat → BitVec 8} {lba : BitVec 32} {bytes : Nat → BitVec 8}

/-- The devices stay what they are made of. -/
structure SameMedia (before after : Bus) : Prop where
  /-- What is kept. -/
  keeps : Keeps before after
  /-- The devices. -/
  media : ∀ place, (after.contents place).map Prod.fst = (before.contents place).map Prod.fst

/-- Nothing but the sectors of a device changes. -/
theorem sameMedia_store (keeps : Keeps bus after) {place : Fin 2 × Fin 2}
    (there : bus.contents place = some (medium, sectors)) {later : Nat → Nat → BitVec 8}
    (contents : after.contents = Function.update bus.contents place (some (medium, later))) :
    SameMedia bus after := by
  refine ⟨keeps, fun other => ?_⟩
  rw [contents]
  by_cases same : other = place
  · subst same
    rw [Function.update_self, there]
    rfl
  · rw [Function.update_of_ne same]

/-- Nothing changes. -/
theorem sameMedia_contents (keeps : Keeps bus after) (contents : after.contents = bus.contents) :
    SameMedia bus after :=
  ⟨keeps, fun place => congrArg (fun held => (held place).map Prod.fst) contents⟩

/-- The devices are where they were. -/
theorem SameMedia.place (same : SameMedia bus after) : after.place drive = bus.place drive := by
  unfold Bus.place
  rw [same.keeps.ideDev]

/-- They are what they were made of. -/
theorem SameMedia.medium_eq (same : SameMedia bus after) :
    after.medium drive = bus.medium drive := by
  unfold Bus.medium
  rw [same.place, same.media]

/-- The channels and the entries belong together still. -/
theorem Wired.same (wired : Wired bus) (same : SameMedia bus after) : Wired after where
  apart := by
    intro drive other reserved otherReserved
    rw [same.place, same.place]
    rw [same.keeps.ideDev] at reserved otherReserved
    exact wired.apart drive other reserved otherReserved
  absent channel := by
    rw [same.keeps.absent]
    exact wired.absent channel
  type := by
    intro drive medium sectors reserved there
    rw [same.keeps.ideDev] at reserved ⊢
    rw [same.place] at there
    have held := same.media (bus.place drive)
    rw [there] at held
    obtain ⟨⟨_, before⟩, found, rfl⟩ := Option.map_eq_some_iff.mp held.symm
    exact wired.type drive _ before reserved found
  addressable := by
    rw [same.keeps.ideDev]
    exact wired.addressable

/-- The result has nothing to do with it. -/
theorem Wired.report {package : BitVec 8} (wired : Wired bus) : Wired (bus.report package) :=
  ⟨wired.apart, wired.absent, wired.type, wired.addressable⟩

/-- Nor has the buffer. -/
theorem Wired.fill (wired : Wired bus) : Wired (bus.fill bytes) :=
  ⟨wired.apart, wired.absent, wired.type, wired.addressable⟩

/-- The drives have the same result. -/
theorem Shows.report {package : BitVec 8} (shows : Shows bus drives) :
    Shows (bus.report package) { drives with package } :=
  ⟨shows.ideDev, rfl, shows.free, fun drive reserved => by
    have holds := shows.holds drive reserved
    cases held : bus.contents (bus.place drive)
    all_goals
      rw [held] at holds
      rw [show (bus.report package).contents ((bus.report package).place drive) = _ from held]
      exact holds⟩

/-- The buffer has nothing to do with the drives. -/
theorem Shows.fill (shows : Shows bus drives) : Shows (bus.fill bytes) drives :=
  ⟨shows.ideDev, shows.package, shows.free, fun drive reserved => by
    have holds := shows.holds drive reserved
    cases held : bus.contents (bus.place drive)
    all_goals
      rw [held] at holds
      rw [show (bus.fill bytes).contents ((bus.fill bytes).place drive) = _ from held]
      exact holds⟩

/-- The drives are the same while the devices hold the same. -/
theorem Shows.same (shows : Shows bus drives) (keeps : Keeps bus after)
    (contents : after.contents = bus.contents) : Shows after drives where
  ideDev drive := by rw [keeps.ideDev, shows.ideDev]
  package := by rw [keeps.package, shows.package]
  free := keeps.free shows.free
  holds drive reserved := by
    rw [keeps.ideDev] at reserved
    have holds := shows.holds drive reserved
    have where' : after.place drive = bus.place drive := by
      unfold Bus.place
      rw [keeps.ideDev]
    rw [contents, where']
    cases held : bus.contents (bus.place drive) with
    | none =>
      rw [held] at holds
      rw [Holds, keeps.ideDev, keeps.absent]
      exact holds
    | some content =>
      rw [held] at holds
      exact holds

/-- The drives store what the devices store. -/
theorem Shows.store (shows : Shows bus drives) (wired : Wired bus) (keeps : Keeps bus after)
    (reserved : (bus.ideDev drive).reserved ≠ 0)
    (there : bus.contents (bus.place drive) = some (medium, sectors))
    (contents : after.contents = Function.update bus.contents (bus.place drive)
      (some (medium, storeSectors sectors lba.toNat 1 bytes))) :
    Shows after (drives.store drive lba bytes) where
  ideDev drive := by rw [keeps.ideDev, shows.ideDev]; rfl
  package := by rw [keeps.package, shows.package]; rfl
  free := keeps.free shows.free
  holds other otherReserved := by
    rw [keeps.ideDev] at otherReserved
    have holds := shows.holds other otherReserved
    have where' : after.place other = bus.place other := by
      unfold Bus.place
      rw [keeps.ideDev]
    rw [contents, where']
    by_cases same : other = drive
    · subst same
      rw [there] at holds
      rw [Function.update_self]
      refine ⟨holds.1, fun sector => ?_⟩
      have before := holds.2 sector
      unfold Drives.store storeSectors
      simp only [Function.update_self]
      by_cases here : sector = lba
      · subst here
        rw [Function.update_self, if_pos (by omega), before, Nat.sub_self, Nat.mul_zero, slice_zero]
      · have apart : sector.toNat ≠ lba.toNat := fun equal => here (BitVec.eq_of_toNat_eq equal)
        rw [Function.update_of_ne here, if_neg (by omega), before]
    · have apart : bus.place other ≠ bus.place drive := fun equal =>
        same (wired.apart other drive otherReserved reserved equal)
      rw [Function.update_of_ne apart]
      cases held : bus.contents (bus.place other) with
      | none =>
        rw [held] at holds
        rw [Holds, keeps.ideDev, keeps.absent]
        exact holds
      | some content =>
        rw [held] at holds
        refine ⟨holds.1, fun sector => ?_⟩
        rw [← holds.2 sector]
        exact congrFun (Function.update_of_ne same ..) sector

end Drives

/-! ## One sector -/

section Calls

variable {bus asked after : Bus} {drives : Drives} {drive : Fin 4} {lba : BitVec 32}

/-- `IsDrivePresent` has selected a drive, or has found that it is not there. -/
structure Asked (bus asked : Bus) : Prop where
  /-- What is kept. -/
  keeps : Keeps bus asked
  /-- The devices hold what they held. -/
  contents : asked.contents = bus.contents
  /-- The buffer is the same. -/
  memory : asked.memory = bus.memory

/-- `IsDrivePresent` has found a drive with its device. -/
structure Found (bus : Bus) (drives : Drives) (drive : Fin 4) (device : AtaDevice) (asked : Bus) :
    Prop extends Asked bus asked where
  /-- The drive is there. -/
  present : Ide.isDrivePresent drives drive = true
  /-- The driver sees it. -/
  answer : isDrivePresent drive bus = .ok true asked
  /-- It has an entry. -/
  reserved : (asked.ideDev drive).reserved ≠ 0
  /-- It has the device. -/
  there : (asked.channel (asked.ideDev drive).channel).device (asked.ideDev drive).drive =
    some device
  /-- The device is selected. -/
  selected : asked.Selected (asked.ideDev drive).channel device

/-- `IsDrivePresent` finds the drives that are there. -/
theorem isDrivePresent_asked (wired : Wired bus) (shows : Shows bus drives) (drive : Fin 4) :
    (Ide.isDrivePresent drives drive = false ∧
        ∃ asked, isDrivePresent drive bus = .ok false asked ∧ Asked bus asked) ∨
      ∃ device asked, Found bus drives drive device asked := by
  have entry := shows.ideDev drive
  by_cases reserved : (bus.ideDev drive).reserved = 0
  · have missing : Ide.isDrivePresent drives drive = false :=
      decide_eq_false fun there => there.1 (entry ▸ reserved)
    exact .inl ⟨missing, bus, isDrivePresent_unreserved reserved,
      ⟨⟨id, fun _ => rfl, rfl, rfl⟩, rfl, rfl⟩⟩
  · let asked := bus.chosen (bus.ideDev drive) (selecting (bus.ideDev drive))
    have holds := shows.holds drive reserved
    have free := shows.free (bus.ideDev drive).channel
    cases found : (bus.channel (bus.ideDev drive).channel).device (bus.ideDev drive).drive with
    | none =>
      rw [show bus.contents (bus.place drive) = none by simp [contents, place, found]] at holds
      have status : drives.status drive =
        (bus.channel (bus.ideDev drive).channel).absent := holds
      have missing : Ide.isDrivePresent drives drive = false :=
        decide_eq_false fun there => there.2 (status ▸ wired.absent _)
      exact .inl ⟨missing, asked, isDrivePresent_missing reserved free found (wired.absent _),
        ⟨keeps_selected, contents_selected, rfl⟩⟩
    | some device =>
      rw [show bus.contents (bus.place drive) = some (device.medium, device.sectors) by
        simp [contents, place, found]] at holds
      refine .inr ⟨_, asked, ⟨⟨keeps_selected, contents_selected, rfl⟩,
        decide_eq_true ⟨entry ▸ reserved, holds.1⟩, isDrivePresent_there reserved free found,
        reserved, ?_, @chosen_selected bus device (selecting (bus.ideDev drive)) _ found⟩⟩
      simp [asked, chosen, wire, filed, found]

/-- The device of a drive that was found. -/
theorem Found.held {device : AtaDevice} (found : Found bus drives drive device asked) :
    asked.contents (asked.place drive) = some (device.medium, device.sectors) := by
  simp [contents, place, found.there]

/-- What a call leaves. -/
structure Called (bus : Bus) (drives : Drives) (memory : Nat → BitVec 8) (after : Bus) :
    Prop where
  /-- The buffer. -/
  memory : after.memory = memory
  /-- The drives. -/
  shows : Shows after drives
  /-- The channels and the entries belong together still. -/
  wired : Wired after
  /-- The devices are what they are made of. -/
  media : ∀ drive, after.medium drive = bus.medium drive

/-- The calls do the same from the bus on which the drive was selected. -/
theorem Called.since {memory : Nat → BitVec 8} (is : Asked bus asked)
    (called : Called asked drives memory after) : Called bus drives memory after :=
  ⟨called.memory, called.shows, called.wired, fun drive =>
    (called.media drive).trans (sameMedia_contents is.keeps is.contents).medium_eq⟩

/-- A call that only asks for a drive ends with a result. -/
theorem Asked.called {package : BitVec 8} (is : Asked bus asked) (wired : Wired bus)
    (shows : Shows bus drives) :
    Called bus { drives with package } bus.memory (asked.report package) := by
  have same := sameMedia_contents is.keeps is.contents
  exact ⟨is.memory, (shows.same is.keeps is.contents).report, (wired.same same).report,
    fun drive => same.medium_eq⟩

/-- The buffer may be filled after a call. -/
theorem Called.fill {memory bytes : Nat → BitVec 8} (called : Called bus drives memory after) :
    Called bus drives bytes (after.fill bytes) :=
  ⟨rfl, called.shows.fill, called.wired.fill, called.media⟩

/-- The device of a drive that was found is made of what it was made of. -/
theorem Found.medium_eq {device : AtaDevice} (found : Found bus drives drive device asked) :
    bus.medium drive = some device.medium := by
  rw [← (sameMedia_contents found.keeps found.contents).medium_eq, Bus.medium, found.held]
  rfl

/-- The result of a transfer is printed and kept. -/
theorem reported_settles {transfer : Nat → Kernel Bus (BitVec 8)} {first : Option Fault}
    {last : AtaDevice} (moved : Settles transfer asked (resultCode first) after)
    (accessed : Accessed asked drive last after)
    (failed : ∀ fault, first = some fault → last.phase = .failed fault) :
    Settles (fun fuel => transfer fuel >>= fun err => idePrintErr drive err >>= setPackage) asked ()
      (after.report (printedCode first)) := by
  have selected : after.Selected (after.ideDev drive).channel last := by
    rw [accessed.keeps.ideDev]
    exact accessed.selected
  exact .bind moved (.bind (.of_ok fun _ => idePrintErr_ok selected failed) (.of_ok fun _ => rfl))

/-- The fault of one sector. -/
theorem firstFault_one {fault : Nat → Option Fault} {sector : Nat} :
    firstFault fault sector 1 = fault sector := by
  rw [firstFault]
  cases fault sector
  all_goals rfl

/-- A sector without a fault counts. -/
theorem soundCount_one {fault : Nat → Option Fault} {sector : Nat} :
    soundCount fault sector 1 = if (fault sector).isSome then 0 else 1 := by
  rw [soundCount]
  cases fault sector
  all_goals rfl

/-- A sector that is not behind the end has an address. -/
theorem Wired.inside (wired : Wired bus) (inside : ¬ behind (bus.ideDev drive) lba 1)
    (ata : (bus.ideDev drive).type = ideAta) : Addressable (bus.ideDev drive).capabilities lba := by
  have bound := lba.isLt
  have one : ((1 : BitVec 8).setWidth 32).toNat = 1 := rfl
  have small : ¬ (bus.ideDev drive).size < lba + (1 : BitVec 8).setWidth 32 := fun large =>
    inside ⟨large, ata⟩
  rw [BitVec.lt_def, BitVec.toNat_add, one] at small
  rcases wired.addressable drive with capable | geometry
  · exact .inr (.inl capable)
  · by_cases last : lba.toNat = 2 ^ 32 - 1
    · exact .inl (by omega)
    · exact .inr (.inr (by omega))

/-- A transfer that stores nothing changes no contents. -/
theorem Accessed.contents_same {device last : AtaDevice} (accessed : Accessed bus drive last after)
    (held : bus.contents (bus.place drive) = some (device.medium, device.sectors))
    (medium : last.medium = device.medium) (sectors : last.sectors = device.sectors) :
    after.contents = bus.contents := by
  rw [accessed.contents, medium, sectors]
  exact Function.update_eq_self_iff.mpr held.symm

/-- One sector fills its part of the buffer, or none of it. -/
theorem sectorBytes_one {size sector : Nat} {buffer : Nat → BitVec 8}
    {sectors : Nat → Nat → BitVec 8} {fault : Nat → Option Fault} :
    overwrite buffer 0 (size * soundCount fault sector 1) (sectorBytes size sectors sector) =
      if (fault sector).isSome then buffer else overwrite buffer 0 size (sectors sector) := by
  rw [soundCount_one]
  split_ifs
  · exact overwrite_empty
  · rw [Nat.mul_one]
    exact overwrite_congr fun index inside => by
      rw [sectorBytes, Nat.div_eq_of_lt inside, Nat.mod_eq_of_lt inside, Nat.add_zero]

/-- A buffer in its own place. -/
theorem overwrite_own {size : Nat} {buffer : Nat → BitVec 8} :
    overwrite buffer 0 size buffer = buffer := by
  funext position
  rw [overwrite, Nat.sub_zero, ite_self]

/-- What is left when a sector was read, or had a fault. -/
structure SectorRead (bus : Bus) (drive : Fin 4) (fault : Option Fault) (size : Nat)
    (bytes : Nat → BitVec 8) (last : AtaDevice) (after : Bus) : Prop where
  /-- The buffer. -/
  memory : after.memory = if fault.isSome then bus.memory else overwrite bus.memory 0 size bytes
  /-- The device is selected. -/
  accessed : Accessed bus drive last after
  /-- All devices hold what they held. -/
  contents : after.contents = bus.contents
  /-- The device reports the fault. -/
  failed : ∀ reported, fault = some reported → last.phase = .failed reported

/-- One sector is read from a device without packets. -/
theorem Ready.readsOne {device : AtaDevice} (ready : Ready bus drive device)
    (addressable : Addressable (bus.ideDev drive).capabilities lba) :
    ∃ last after, Settles (fun fuel => ideAccess fuel .ataRead drive lba 1 0) bus
        (resultCode (device.medium.readFault lba.toNat)) after ∧
      SectorRead bus drive (device.medium.readFault lba.toNat) 512 (device.sectors lba.toNat) last
        after := by
  have one : (1 : BitVec 8).toNat = 1 := rfl
  obtain ⟨last, after, settles, memory, accessed, medium, sectors, failed⟩ :=
    @Ready.reads bus drive device lba 1 ready (by decide) addressable 0
  rw [one, firstFault_one] at settles failed
  rw [one, sectorBytes_one] at memory
  exact ⟨last, after, settles, memory, accessed,
    accessed.contents_same ready.contents medium sectors, failed⟩

/-- One sector is read from a device with packets. -/
theorem PacketReady.readsOne {device : AtaDevice} (ready : PacketReady bus drive device) :
    ∃ last after, Settles (fun fuel => packets fuel drive 1 lba 0 0) bus
        (resultCode (device.medium.readFault lba.toNat)) after ∧
      SectorRead bus drive (device.medium.readFault lba.toNat) 2048 (device.sectors lba.toNat) last
        after := by
  have one : (1 : BitVec 8).toNat = 1 := rfl
  have held : bus.contents (bus.place drive) = some (device.medium, device.sectors) := by
    simp [contents, place, ready.there]
  obtain ⟨last, after, settles, memory, accessed, medium, sectors, failed⟩ :=
    @PacketReady.reads bus drive device ready lba 1 0
  rw [one, firstFault_one] at settles failed
  rw [one, sectorBytes_one] at memory
  exact ⟨last, after, .bind settles .returns, memory, accessed,
    accessed.contents_same held medium sectors, failed⟩

/-- The sector of a drive that was found is read. -/
theorem sectorsRead_shows {device : AtaDevice} (wired : Wired bus) (shows : Shows bus drives)
    (reserved : (bus.ideDev drive).reserved ≠ 0)
    (there : (bus.channel (bus.ideDev drive).channel).device (bus.ideDev drive).drive = some device)
    (selected : bus.Selected (bus.ideDev drive).channel device)
    (inside : ¬ behind (bus.ideDev drive) lba 1) :
    ∃ after, Settles (fun fuel => sectorsRead fuel drive 1 lba 0 (bus.ideDev drive) >>= fun err =>
          idePrintErr drive err >>= setPackage) bus () after ∧
      Called bus { drives with package := printedCode (device.medium.readFault lba.toNat) }
        (if (device.medium.readFault lba.toNat).isSome then bus.memory
          else overwrite bus.memory 0
            (if (bus.ideDev drive).type = ideAta then 512 else 2048) (drives.sector drive lba))
        after := by
  have held : bus.contents (bus.place drive) = some (device.medium, device.sectors) := by
    simp [contents, place, there]
  have stored : drives.sector drive lba = device.sectors lba.toNat := by
    have holds := shows.holds drive reserved
    rw [held] at holds
    exact holds.2 lba
  have free := shows.free (bus.ideDev drive).channel
  have finish : ∀ {size last after},
      SectorRead bus drive (device.medium.readFault lba.toNat) size (device.sectors lba.toNat) last
        after →
      Called bus { drives with package := printedCode (device.medium.readFault lba.toNat) }
        (if (device.medium.readFault lba.toNat).isSome then bus.memory
          else overwrite bus.memory 0 size (drives.sector drive lba))
        (after.report (printedCode (device.medium.readFault lba.toNat))) := by
    intro size last after read
    have still := sameMedia_contents read.accessed.keeps read.contents
    rw [stored]
    exact ⟨read.memory, (shows.same read.accessed.keeps read.contents).report,
      (wired.same still).report, fun drive => still.medium_eq⟩
  rcases wired.type drive device.medium device.sectors reserved held with
    ⟨type, ata⟩ | ⟨type, atapi, _⟩
  · obtain ⟨last, after, settles, read⟩ := @Ready.readsOne bus drive lba device
      ⟨free, ⟨device, selected⟩, there, ata⟩ (wired.inside inside type)
    rw [if_pos type]
    exact ⟨_, reported_settles (.congr (fun _ => by rw [sectorsRead, if_pos type]) settles)
      read.accessed read.failed, finish read⟩
  · obtain ⟨last, after, settles, read⟩ := @PacketReady.readsOne bus drive lba device
      ⟨free, there, atapi⟩
    have noAta : ¬ (bus.ideDev drive).type = ideAta := by
      rw [type]
      decide
    rw [if_neg noAta]
    exact ⟨_, reported_settles (.congr (fun _ => by
      rw [sectorsRead, if_neg noAta, if_pos type]; rfl) settles) read.accessed read.failed,
      finish read⟩

/-- **Reads of a sector.** With the devices behind their ports `IDEReadSectors` returns, and reads
what the drives hold; with a fault it leaves the buffer and reports the fault. -/
theorem ideReadSectors_shows (wired : Wired bus) (shows : Shows bus drives) (drive : Fin 4)
    (lba : BitVec 32) :
    ∃ after, Settles (fun fuel => ideReadSectors fuel drive 1 lba 0) bus () after ∧
      Called bus (ideReadSectorsWith (deviceErrors (bus.medium drive) bus.memory).reads drive lba
          bus.memory drives).2
        (ideReadSectorsWith (deviceErrors (bus.medium drive) bus.memory).reads drive lba bus.memory
          drives).1 after := by
  unfold ideReadSectorsWith
  dsimp only
  rcases isDrivePresent_asked wired shows drive with
    ⟨missing, asked, answer, is⟩ | ⟨device, asked, found⟩
  · rw [if_pos (by rw [missing]; decide)]
    refine ⟨(asked.report 0).fill (overwrite asked.memory 0 512 fun _ => 0),
      .bind (.of_ok fun _ => answer) (.of_ok fun _ => rfl), ?_⟩
    rw [is.memory]
    exact (is.called wired shows).fill
  · have askedWired := wired.same (sameMedia_contents found.keeps found.contents)
    have askedShows := shows.same found.keeps found.contents
    have whole : ∀ fuel, ideReadSectors fuel drive 1 lba 0 bus =
        (if behind (asked.ideDev drive) lba 1 then setPackage 0x2
          else sectorsRead fuel drive 1 lba 0 (asked.ideDev drive) >>= fun err =>
            idePrintErr drive err >>= setPackage) asked := by
      intro fuel
      unfold ideReadSectors
      rw [bind_of_ok found.answer, if_neg (by decide), bind_of_ok (get_ok.mpr ⟨rfl, rfl⟩),
        if_neg found.reserved]
    have entry := askedShows.ideDev drive
    rw [if_neg (not_not.mpr found.present), if_neg (entry ▸ found.reserved), ← entry]
    by_cases beyond : behind (asked.ideDev drive) lba 1
    · rw [if_pos (show outside _ lba from beyond)]
      exact ⟨asked.report 2, .continues whole (.of_ok fun _ => by rw [if_pos beyond]; rfl),
        found.toAsked.called wired shows⟩
    · obtain ⟨after, settles, called⟩ := sectorsRead_shows askedWired askedShows found.reserved
        found.there found.selected beyond
      refine ⟨after, .continues (fun fuel => (whole fuel).trans (by rw [if_neg beyond])) settles,
        .since found.toAsked ?_⟩
      have code : (deviceErrors (bus.medium drive) bus.memory).reads.result lba =
          printedCode (device.medium.readFault lba.toNat) := by
        rw [found.medium_eq]
        rfl
      rw [if_neg (show ¬ outside _ lba from beyond), code]
      rw [found.memory] at called
      by_cases ata : (asked.ideDev drive).type = ideAta
      · rw [if_pos ata] at called
        rw [if_pos ata]
        cases fault : device.medium.readFault lba.toNat with
        | none =>
          have success : printedCode none = 0 := rfl
          rw [fault, success] at called
          rw [success, if_neg (not_not.mpr rfl)]
          exact called
        | some first =>
          have left : overwrite bus.memory 0 512
              ((deviceErrors (bus.medium drive) bus.memory).reads.torn lba) = bus.memory :=
            overwrite_own
          rw [fault] at called
          rw [if_pos printedCode_ne_zero, left]
          exact called
      · obtain ⟨other, _⟩ | ⟨atapi, _, sound⟩ := askedWired.type drive _ _ found.reserved found.held
        · exact absurd other ata
        · rw [if_neg ata, sound] at called
          rw [if_neg ata, if_pos atapi]
          exact called

/-- The sector of a drive that was found is written. -/
theorem sectorsWritten_shows {device : AtaDevice} (wired : Wired bus) (shows : Shows bus drives)
    (reserved : (bus.ideDev drive).reserved ≠ 0)
    (there : (bus.channel (bus.ideDev drive).channel).device (bus.ideDev drive).drive = some device)
    (selected : bus.Selected (bus.ideDev drive).channel device)
    (inside : ¬ behind (bus.ideDev drive) lba 1) :
    ∃ after, Settles (fun fuel => sectorsWritten fuel drive 1 lba 0 (bus.ideDev drive) >>=
          fun err => idePrintErr drive err >>= setPackage) bus () after ∧
      Called bus
        (if (bus.ideDev drive).type = ideAta then
          { (if (device.medium.writeFault lba.toNat).isSome then drives
              else drives.store drive lba bus.memory) with package := 0 }
        else { drives with package := 8 }) bus.memory after := by
  have held : bus.contents (bus.place drive) = some (device.medium, device.sectors) := by
    simp [contents, place, there]
  have free := shows.free (bus.ideDev drive).channel
  rcases wired.type drive device.medium device.sectors reserved held with
    ⟨type, ata⟩ | ⟨type, atapi, _⟩
  · have one : (1 : BitVec 8).toNat = 1 := rfl
    obtain ⟨last, after, settles, memory, accessed, medium, sectors⟩ :=
      @Ready.stores bus drive device lba 1 ⟨free, ⟨device, selected⟩, there, ata⟩ (by decide)
        (wired.inside inside type) 0
    have moved : Settles (fun fuel => sectorsWritten fuel drive 1 lba 0 (bus.ideDev drive)) bus
        (resultCode none) after := .congr (fun _ => by rw [sectorsWritten, if_pos type]) settles
    have contents := accessed.contents
    rw [medium, sectors, one, soundCount_one, slice_zero] at contents
    have still := sameMedia_store accessed.keeps held contents
    refine ⟨_, reported_settles moved accessed fun _ failed => (by cases failed), memory, ?_,
      (wired.same still).report, fun drive => still.medium_eq⟩
    rw [if_pos type]
    split_ifs with refused
    · rw [if_pos refused, storeSectors_zero] at contents
      exact (shows.same accessed.keeps
        (contents.trans (Function.update_eq_self_iff.mpr held.symm))).report
    · rw [if_neg refused] at contents
      exact (shows.store wired accessed.keeps reserved held contents).report
  · have noAta : ¬ (bus.ideDev drive).type = ideAta := by
      rw [type]
      decide
    rw [if_neg noAta]
    refine ⟨bus.report 8, .of_ok fun _ => ?_, rfl, shows.report, wired.report, fun _ => rfl⟩
    rw [sectorsWritten, if_neg noAta, if_pos type]
    rfl

/-- **Writes of a sector.** With the devices behind their ports `IDEWriteSectors` returns, and
stores what the buffer holds; a fault is not reported, and nothing is stored. -/
theorem ideWriteSectors_shows (wired : Wired bus) (shows : Shows bus drives) (drive : Fin 4)
    (lba : BitVec 32) :
    ∃ after, Settles (fun fuel => ideWriteSectors fuel drive 1 lba 0) bus () after ∧
      Called bus (ideWriteSectorsUnder (deviceErrors (bus.medium drive) bus.memory) drive lba
        bus.memory drives).1 bus.memory after := by
  unfold ideWriteSectorsUnder
  dsimp only
  rcases isDrivePresent_asked wired shows drive with
    ⟨missing, asked, answer, is⟩ | ⟨device, asked, found⟩
  · rw [if_pos (by rw [missing]; decide)]
    exact ⟨asked.report 0, .bind (.of_ok fun _ => answer) (.of_ok fun _ => rfl),
      is.called wired shows⟩
  · have askedWired := wired.same (sameMedia_contents found.keeps found.contents)
    have askedShows := shows.same found.keeps found.contents
    have whole : ∀ fuel, ideWriteSectors fuel drive 1 lba 0 bus =
        (if behind (asked.ideDev drive) lba 1 then setPackage 0x2
          else sectorsWritten fuel drive 1 lba 0 (asked.ideDev drive) >>= fun err =>
            idePrintErr drive err >>= setPackage) asked := by
      intro fuel
      unfold ideWriteSectors
      rw [bind_of_ok found.answer, if_neg (by decide), bind_of_ok (get_ok.mpr ⟨rfl, rfl⟩),
        if_neg found.reserved]
    have entry := askedShows.ideDev drive
    rw [if_neg (not_not.mpr found.present), if_neg (entry ▸ found.reserved), ← entry]
    by_cases beyond : behind (asked.ideDev drive) lba 1
    · rw [if_pos (show outside _ lba from beyond)]
      exact ⟨asked.report 2, .continues whole (.of_ok fun _ => by rw [if_pos beyond]; rfl),
        found.toAsked.called wired shows⟩
    · obtain ⟨after, settles, called⟩ := sectorsWritten_shows askedWired askedShows found.reserved
        found.there found.selected beyond
      refine ⟨after, .continues (fun fuel => (whole fuel).trans (by rw [if_neg beyond])) settles,
        .since found.toAsked ?_⟩
      have refused : (deviceErrors (bus.medium drive) bus.memory).refused lba =
          (device.medium.writeFault lba.toNat).isSome := by
        rw [found.medium_eq]
        rfl
      rw [if_neg (show ¬ outside _ lba from beyond), ideAccessWrite, refused]
      rw [found.memory] at called
      by_cases ata : (asked.ideDev drive).type = ideAta
      · rw [if_pos ata] at called
        rw [if_pos ata]
        exact called
      · obtain ⟨other, _⟩ | ⟨atapi, _⟩ := askedWired.type drive _ _ found.reserved found.held
        · exact absurd other ata
        · rw [if_neg ata] at called
          rw [if_neg ata, if_pos atapi]
          exact called

end Calls

end Bus

/-! ## Runs -/

/-- What the functions of the nodes do with the drives. -/
inductive SectorCall
  /-- `IDEReadSectors` into a buffer. -/
  | read (drive : Fin 4) (lba : BitVec 32) (buffer : Nat → BitVec 8)
  /-- `IDEWriteSectors` from a buffer. -/
  | write (drive : Fin 4) (lba : BitVec 32) (buffer : Nat → BitVec 8)
  /-- `package[0] = 0`. -/
  | forget

namespace SectorCall

/-- A call over the ports: the buffer behind it, and the result. -/
def perform (fuel : Nat) : SectorCall → Kernel Bus ((Nat → BitVec 8) × BitVec 8)
  | read drive lba buffer => do
    modify fun bus => bus.fill buffer
    Bus.ideReadSectors fuel drive 1 lba 0
    let bus ← get
    pure (bus.memory, bus.package)
  | write drive lba buffer => do
    modify fun bus => bus.fill buffer
    Bus.ideWriteSectors fuel drive 1 lba 0
    let bus ← get
    pure (bus.memory, bus.package)
  | forget => do
    Bus.setPackage 0
    let bus ← get
    pure (bus.memory, bus.package)

/-- What the call does to drives that are a store of sectors, with the same buffer behind it. -/
def outcome (media : Fin 4 → Option Medium) (memory : Nat → BitVec 8) (drives : Drives) :
    SectorCall → (Nat → BitVec 8) × Drives
  | read drive lba buffer =>
    ideReadSectorsWith (Bus.deviceErrors (media drive) buffer).reads drive lba buffer drives
  | write drive lba buffer =>
    (buffer, (ideWriteSectorsUnder (Bus.deviceErrors (media drive) buffer) drive lba buffer
      drives).1)
  | forget => (memory, { drives with package := 0 })

/-- Calls one after the other. -/
def performs (fuel : Nat) : List SectorCall → Kernel Bus (List ((Nat → BitVec 8) × BitVec 8))
  | [] => pure []
  | call :: calls => do
    let result ← call.perform fuel
    let results ← performs fuel calls
    pure (result :: results)

/-- What they do to drives that are a store of sectors: the buffers and the results. -/
def outcomes (media : Fin 4 → Option Medium) (memory : Nat → BitVec 8) (drives : Drives) :
    List SectorCall → List ((Nat → BitVec 8) × BitVec 8) × Drives
  | [] => ([], drives)
  | call :: calls =>
    let (buffer, next) := call.outcome media memory drives
    let (results, last) := outcomes media buffer next calls
    ((buffer, next.package) :: results, last)

/-- A call over the ports does what it does to the drives. -/
theorem perform_shows {bus : Bus} {drives : Drives} (call : SectorCall) (wired : bus.Wired)
    (shows : bus.Shows drives) :
    ∃ after, Settles call.perform bus ((call.outcome bus.medium bus.memory drives).1,
        (call.outcome bus.medium bus.memory drives).2.package) after ∧
      bus.Called (call.outcome bus.medium bus.memory drives).2
        (call.outcome bus.medium bus.memory drives).1 after := by
  have answered : ∀ {action : Nat → Kernel Bus Unit} {start before after : Bus} {next : Drives}
      {buffer : Nat → BitVec 8}, Settles action before () after → start.Called next buffer after →
      Settles (fun fuel => action fuel >>= fun _ => get >>= fun bus =>
        pure (bus.memory, bus.package)) before (buffer, next.package) after := by
    intro action start before after next buffer settles called
    have is : (after.memory, after.package) = (buffer, next.package) := by
      rw [called.memory, called.shows.package]
    exact .bind settles (.bind_get (is ▸ .returns))
  cases call with
  | read drive lba buffer =>
    obtain ⟨after, settles, called⟩ :=
      Bus.ideReadSectors_shows (@Bus.Wired.fill bus buffer wired)
        (@Bus.Shows.fill bus drives buffer shows) drive lba
    exact ⟨after, .bind_modify (answered settles called), called.memory, called.shows, called.wired,
      called.media⟩
  | write drive lba buffer =>
    obtain ⟨after, settles, called⟩ :=
      Bus.ideWriteSectors_shows (@Bus.Wired.fill bus buffer wired)
        (@Bus.Shows.fill bus drives buffer shows) drive lba
    exact ⟨after, .bind_modify (answered settles called), called.memory, called.shows, called.wired,
      called.media⟩
  | forget =>
    have called : bus.Called { drives with package := 0 } bus.memory (bus.report 0) :=
      ⟨rfl, shows.report, wired.report, fun _ => rfl⟩
    exact ⟨bus.report 0, answered (.of_ok fun _ => rfl) called, called⟩

/-- Runs of calls do what they do to the drives. -/
theorem performs_shows {bus : Bus} {drives : Drives} (calls : List SectorCall) (wired : bus.Wired)
    (shows : bus.Shows drives) :
    ∃ after, Settles (fun fuel => performs fuel calls) bus
        (outcomes bus.medium bus.memory drives calls).1 after ∧
      after.Shows (outcomes bus.medium bus.memory drives calls).2 ∧ after.Wired ∧
      ∀ drive, after.medium drive = bus.medium drive := by
  -- By induction on the calls: each leaves channels that show the drives again.
  induction calls generalizing bus drives with
  | nil => exact ⟨bus, .returns, shows, wired, fun _ => rfl⟩
  | cons call calls ih =>
    obtain ⟨middle, settles, called⟩ := call.perform_shows wired shows
    obtain ⟨after, settlesAll, shows', wired', media⟩ := ih called.wired called.shows
    have same : middle.medium = bus.medium := funext called.media
    rw [same, called.memory] at settlesAll shows'
    exact ⟨after, .bind settles (.bind settlesAll .returns), shows', wired',
      fun drive => (media drive).trans (called.media drive)⟩

end SectorCall

/-- The drives that the channels of the example make. -/
def sampleDrives : Drives where
  ideDev := fun drive => ((Bus.sampleBus true).ideDev drive).toIDEDev
  status := fun _ => 0x50
  sector := fun _ lba _ => .ofNat 8 lba.toNat
  package := 0

section Sample

variable {faulty : Bool}

/-- Only two of them have entries. -/
theorem sampleBus_entries {drive : Fin 4}
    (reserved : ((Bus.sampleBus faulty).ideDev drive).reserved ≠ 0) : drive = 0 ∨ drive = 1 := by
  revert reserved
  revert drive
  exact (by decide : ∀ drive : Fin 4, (if drive ≤ 1 then (1 : BitVec 8) else 0) ≠ 0 →
    drive = 0 ∨ drive = 1)

/-- They belong together. -/
theorem sampleBus_wired : (Bus.sampleBus faulty).Wired where
  apart drive other reserved otherReserved same := by
    rcases sampleBus_entries reserved with rfl | rfl
    all_goals
      rcases sampleBus_entries otherReserved with rfl | rfl
      all_goals first
        | rfl
        | exact absurd same (by decide : ((0, 0) : Fin 2 × Fin 2) ≠ (1, 1))
        | exact absurd same (by decide : ((1, 1) : Fin 2 × Fin 2) ≠ (0, 0))
  absent _ := .inl rfl
  type drive medium sectors reserved there := by
    rcases sampleBus_entries reserved with rfl | rfl
    · cases there
      exact .inl ⟨rfl, rfl⟩
    · cases there
      exact .inr ⟨rfl, rfl, fun lba => (Bus.sampleDevice_sound true lba).1⟩
  addressable _ := .inl (by decide : (0x200 : BitVec 16) &&& 0x200 ≠ 0)

/-- The devices hold what the drives hold. -/
theorem sampleBus_shows : (Bus.sampleBus faulty).Shows sampleDrives where
  ideDev _ := rfl
  package := rfl
  free := Bus.sampleBus_free faulty
  holds drive reserved := by
    have answers : ¬ ((0x50 : BitVec 8) = 0xFF ∨ (0x50 : BitVec 8) = 0x00) := by decide
    rcases sampleBus_entries reserved with rfl | rfl
    all_goals exact ⟨answers, fun _ => rfl⟩

end Sample

end Unarddeg.Ide
