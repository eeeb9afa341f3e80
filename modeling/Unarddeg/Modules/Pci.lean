import Unarddeg.Kernel.Vfs.RelativeFind
import Unarddeg.Library.BoundedTable

/-!
# The enumeration of the PCI functions

`modules/pci/main.c`, without its texts. A configuration space is what `PCI_CONFIG_DATA` returns
for each address written to `PCI_CONFIG_ADDRESS`.

`PCIRegister` does not compare `Count` with `MAX_DEVICES`; a store behind the table stops the model.
The table does not fit in one page, so its block is zero only where the second page that `kalloc`
took is behind the first: what the block holds is a parameter of `Init`.
-/

namespace Unarddeg.Pci

open Library

/-! ## The configuration space -/

/-- The registers of all functions, by the address of the access. -/
abbrev ConfigSpace := BitVec 32 → BitVec 32

section Config

variable (config : ConfigSpace) (bus : BitVec 16) (slot func offset : BitVec 8)

/-- `PCIConfigReadDword`. -/
def pciConfigReadDword : BitVec 32 :=
  config (bus.setWidth 32 <<< 16 ||| slot.setWidth 32 <<< 11 ||| func.setWidth 32 <<< 8 |||
    (offset.setWidth 32 &&& 0xFC) ||| 0x80000000)

/-- `PCIConfigReadWord`. -/
def pciConfigReadWord : BitVec 16 :=
  let data := pciConfigReadDword config bus slot func offset
  ((data >>> ((offset &&& 2).toNat * 8)) &&& 0xFFFF).setWidth 16

/-- `PCIConfigReadByte`. -/
def pciConfigReadByte : BitVec 8 :=
  let data := pciConfigReadDword config bus slot func offset
  ((data >>> ((offset &&& 3).toNat * 8)) &&& 0xFF).setWidth 8

/-- `PCIDeviceExists`. -/
def pciDeviceExists : Bool := pciConfigReadWord config bus slot func 0x00 != 0xFFFF

/-- `PCIDEV`. -/
structure PCIDEV where
  /-- `bus`. -/
  bus : BitVec 8
  /-- `slot`. -/
  slot : BitVec 8
  /-- `function`. -/
  function : BitVec 8
  /-- `vendor_id`. -/
  vendorId : BitVec 16
  /-- `device_id`. -/
  deviceId : BitVec 16
  /-- `class_id`. -/
  classId : BitVec 8
  /-- `subclass_id`. -/
  subclassId : BitVec 8
  /-- `prog_if`. -/
  progIf : BitVec 8
  /-- `revision`. -/
  revision : BitVec 8
  /-- `header_type`. -/
  headerType : BitVec 8
  /-- `irq_line`. -/
  irqLine : BitVec 8
  /-- `bar`. -/
  bar : Fin 6 → BitVec 32

/-- `PCIReadDeviceInfo`. -/
def pciReadDeviceInfo : PCIDEV where
  bus := bus.setWidth 8
  slot := slot
  function := func
  vendorId := pciConfigReadWord config bus slot func 0x00
  deviceId := pciConfigReadWord config bus slot func 0x02
  revision := pciConfigReadByte config bus slot func 0x08
  progIf := pciConfigReadByte config bus slot func 0x09
  subclassId := pciConfigReadByte config bus slot func 0x0A
  classId := pciConfigReadByte config bus slot func 0x0B
  headerType := pciConfigReadByte config bus slot func 0x0E
  irqLine := pciConfigReadByte config bus slot func 0x3C
  bar i := pciConfigReadDword config bus slot func (BitVec.ofNat 8 (0x10 + i.val * 4))

end Config

/-! ## The scan -/

/-- `MAX_DEVICES`. -/
def maxDevices : Nat := 128

/-- `PCI`: the entries are `Dev`, and `Count` of them are in use. -/
abbrev PCI := BoundedTable PCIDEV maxDevices

/-- `PCIRegister`. -/
def pciRegister (dev : PCIDEV) : Kernel PCI Unit := BoundedTable.append .outOfBounds dev

/-- The loop of `PCIEnumeratePci` over the functions of a slot. -/
def enumerateFunctions {σ : Type} (config : ConfigSpace) (onDeviceFound : PCIDEV → Kernel σ Unit)
    (bus : BitVec 16) (slot : BitVec 8) (funcLimit : Nat) : Kernel σ Unit :=
  (List.range funcLimit).forM fun index =>
    let func := BitVec.ofNat 8 index
    if pciDeviceExists config bus slot func then
      onDeviceFound (pciReadDeviceInfo config bus slot func)
    else pure ()

/-- `PCIEnumeratePci`. -/
def pciEnumeratePci {σ : Type} (config : ConfigSpace) (onDeviceFound : PCIDEV → Kernel σ Unit) :
    Kernel σ Unit :=
  (List.range 256).forM fun busIndex => (List.range 32).forM fun slotIndex =>
    let bus := BitVec.ofNat 16 busIndex
    let slot := BitVec.ofNat 8 slotIndex
    if pciDeviceExists config bus slot 0 then
      let headerType := pciConfigReadByte config bus slot 0 0x0E
      let funcLimit := if headerType &&& 0x80 ≠ 0 then 8 else 1
      enumerateFunctions config onDeviceFound bus slot funcLimit
    else pure ()

section Init

variable {width : Nat} {Registers : Type}

/-- The part of `Init` before the scan: the node `/dev/pci` is made if there is a `/dev`. -/
def publish (allocator : Allocator) (fuel : Nat) : Kernel (KernelState width Registers) Bool := do
  let pci ← kalloc allocator
  let state ← get
  let devFile ← ofExcept (relativeFind state.node fuel (some rootVNode) (cString ['d', 'e', 'v']))
  if devFile = none then pure false
  else
    let pciFile ← newVNode allocator (vfsRead ||| vfsWrite)
    writeNode (some pciFile) fun node =>
      { node with
        name := ⟨cString ['p', 'c', 'i'], 3⟩
        driverData := some pci
        writeFunction := .driver
        readFunction := .driver }
    registerChildVNode devFile (some pciFile)
    pure true

/-- `Init`: its result and the table. -/
def init (allocator : Allocator) (fuel : Nat) (config : ConfigSpace) (block : PCI) :
    Kernel (KernelState width Registers) (Int × PCI) := do
  if ← publish allocator fuel then
    match pciEnumeratePci config pciRegister block with
    | .ok _ pci => pure (pci.count, pci)
    | .error reason _ => throw reason
  else pure (-1, block)

end Init

/-! ## What is reachable -/

/-- The place of a function. -/
structure Location where
  /-- The bus. -/
  bus : Nat
  /-- The slot on the bus. -/
  slot : Nat
  /-- The function of the slot. -/
  function : Nat
  deriving DecidableEq

/-- Places are ordered by bus, then by slot, then by function. -/
def Location.Before (left right : Location) : Prop :=
  left.bus < right.bus ∨ left.bus = right.bus ∧
    (left.slot < right.slot ∨ left.slot = right.slot ∧ left.function < right.function)

/-- What a configuration space says about a place. -/
def deviceAt (config : ConfigSpace) (location : Location) : PCIDEV :=
  pciReadDeviceInfo config (BitVec.ofNat 16 location.bus) (BitVec.ofNat 8 location.slot)
    (BitVec.ofNat 8 location.function)

/-- A function answers. -/
def Answers (config : ConfigSpace) (location : Location) : Prop :=
  (deviceAt config location).vendorId ≠ 0xFFFF

/-- The multifunction bit of the first function of a slot is set. -/
def Multifunction (config : ConfigSpace) (location : Location) : Prop :=
  (deviceAt config { location with function := 0 }).headerType &&& 0x80 ≠ 0

/-- A function answers and is reached by the scan. -/
structure Reachable (config : ConfigSpace) (location : Location) : Prop where
  /-- There are 256 buses, with 32 slots of 8 functions. -/
  inside : location.bus < 256 ∧ location.slot < 32 ∧ location.function < 8
  /-- The first function of the slot answers. -/
  first : Answers config { location with function := 0 }
  /-- It is the first function, or the multifunction bit is set. -/
  limit : location.function = 0 ∨ Multifunction config location
  /-- It answers. -/
  answers : Answers config location

/-- The entries in use are exactly the reachable functions, each once and in their order. -/
def Lists (config : ConfigSpace) (pci : PCI) : Prop :=
  ∃ locations : List Location, (∀ location, location ∈ locations ↔ Reachable config location) ∧
    locations.Pairwise Location.Before ∧ pci.inUse = locations.map (deviceAt config)

section Scan

variable {σ : Type} {config : ConfigSpace} {location : Location}

instance : Decidable (Answers config location) := inferInstanceAs (Decidable (_ ≠ _))

instance : Decidable (Multifunction config location) := inferInstanceAs (Decidable (_ ≠ _))

/-- The number of functions of a slot that are tried. -/
def functionLimit (config : ConfigSpace) (bus slot : Nat) : Nat :=
  if Answers config ⟨bus, slot, 0⟩ then if Multifunction config ⟨bus, slot, 0⟩ then 8 else 1 else 0

/-- The places of a slot at which a function is found. -/
def foundIn (config : ConfigSpace) (bus slot : Nat) : List Location :=
  ((List.range (functionLimit config bus slot)).map (Location.mk bus slot)).filter
    fun location => Answers config location

/-- The places at which a function is found, in the order of the scan. -/
def found (config : ConfigSpace) : List Location :=
  (List.range 256).flatMap fun bus => (List.range 32).flatMap (foundIn config bus)

/-- A function exists when it answers. -/
theorem pciDeviceExists_iff (bus slot function : Nat) :
    pciDeviceExists config (BitVec.ofNat 16 bus) (BitVec.ofNat 8 slot) (BitVec.ofNat 8 function) =
      true ↔ Answers config ⟨bus, slot, function⟩ := bne_iff_ne

/-- The loop over the functions of a slot. -/
theorem enumerateFunctions_eq (onDeviceFound : PCIDEV → Kernel σ Unit) (bus slot limit : Nat) :
    enumerateFunctions config onDeviceFound (BitVec.ofNat 16 bus) (BitVec.ofNat 8 slot) limit =
      (((List.range limit).map (Location.mk bus slot)).filter
        fun location => Answers config location).forM (onDeviceFound <| deviceAt config ·) := by
  rw [forM_filter, forM_map]
  unfold enumerateFunctions
  congr 1
  funext function
  apply if_congr _ rfl rfl
  rw [decide_eq_true_eq]
  exact pciDeviceExists_iff bus slot function

/-- A slot, as the scan treats it. -/
theorem enumerateSlot_eq (onDeviceFound : PCIDEV → Kernel σ Unit) (bus slot : Nat) :
    (if pciDeviceExists config (BitVec.ofNat 16 bus) (BitVec.ofNat 8 slot) 0 then
      enumerateFunctions config onDeviceFound (BitVec.ofNat 16 bus) (BitVec.ofNat 8 slot)
        (if pciConfigReadByte config (BitVec.ofNat 16 bus) (BitVec.ofNat 8 slot) 0 0x0E &&& 0x80 ≠ 0
        then 8 else 1)
    else pure ()) = (foundIn config bus slot).forM (onDeviceFound <| deviceAt config ·) := by
  have first : pciDeviceExists config (BitVec.ofNat 16 bus) (BitVec.ofNat 8 slot) 0 = true ↔
      Answers config ⟨bus, slot, 0⟩ := pciDeviceExists_iff bus slot 0
  unfold foundIn functionLimit
  by_cases answers : Answers config ⟨bus, slot, 0⟩
  · rw [if_pos answers, if_pos (first.mpr answers), enumerateFunctions_eq]
    rfl
  · rw [if_neg answers, if_neg (fun exist => answers (first.mp exist))]
    rfl

/-- The scan hands each found function to its argument, in order. -/
theorem pciEnumeratePci_eq (onDeviceFound : PCIDEV → Kernel σ Unit) :
    pciEnumeratePci config onDeviceFound =
      (found config).forM (onDeviceFound <| deviceAt config ·) := by
  unfold found pciEnumeratePci
  rw [forM_flatMap]
  congr 1
  funext bus
  rw [forM_flatMap]
  congr 1
  funext slot
  exact enumerateSlot_eq onDeviceFound bus slot

/-- The limit of a slot leaves what the scan rule says. -/
theorem function_lt_limit : location.function < functionLimit config location.bus location.slot ↔
    location.function < 8 ∧ Answers config { location with function := 0 } ∧
      (location.function = 0 ∨ Multifunction config location) := by
  show location.function < (if Answers config { location with function := 0 } then
    if Multifunction config location then 8 else 1 else 0) ↔ _
  split
  · next answers =>
    split
    · next many => simp [answers, many]
    · next one =>
      simp only [answers, one, true_and, or_false]
      omega
  · next silent => simp [silent]

/-- Exactly the reachable functions are found. -/
theorem mem_found : location ∈ found config ↔ Reachable config location := by
  have member : location ∈ found config ↔ location.bus < 256 ∧ location.slot < 32 ∧
      location.function < functionLimit config location.bus location.slot ∧
      Answers config location := by
    simp only [found, foundIn, List.mem_flatMap, List.mem_filter, List.mem_map, List.mem_range,
      decide_eq_true_eq]
    constructor
    · rintro ⟨bus, someBus, slot, someSlot, ⟨function, below, rfl⟩, answers⟩
      exact ⟨someBus, someSlot, below, answers⟩
    · rintro ⟨someBus, someSlot, below, answers⟩
      exact ⟨_, someBus, _, someSlot, ⟨_, below, rfl⟩, answers⟩
  rw [member, function_lt_limit]
  constructor
  · rintro ⟨bus, slot, ⟨function, first, limit⟩, answers⟩
    exact ⟨⟨bus, slot, function⟩, first, limit, answers⟩
  · intro reachable
    obtain ⟨bus, slot, function⟩ := reachable.inside
    exact ⟨bus, slot, ⟨function, reachable.first, reachable.limit⟩, reachable.answers⟩

/-- The functions of a slot are found at its places. -/
theorem place_of_foundIn {bus slot : Nat} (member : location ∈ foundIn config bus slot) :
    location.bus = bus ∧ location.slot = slot := by
  obtain ⟨_, _, rfl⟩ := List.mem_map.mp (List.mem_filter.mp member).1
  exact ⟨rfl, rfl⟩

/-- They are found in their order. -/
theorem found_ordered : (found config).Pairwise Location.Before := by
  unfold found
  rw [List.pairwise_flatMap]
  refine ⟨fun bus _ => List.pairwise_flatMap.mpr ⟨fun slot _ => ?_, ?_⟩, ?_⟩
  · -- The functions of a slot.
    apply List.Pairwise.filter
    apply List.Pairwise.map _ _ List.pairwise_lt_range
    exact fun _ _ less => .inr ⟨rfl, .inr ⟨rfl, less⟩⟩
  · -- The slots of a bus.
    refine List.pairwise_lt_range.imp fun less left inLeft right inRight => ?_
    obtain ⟨leftBus, leftSlot⟩ := place_of_foundIn inLeft
    obtain ⟨rightBus, rightSlot⟩ := place_of_foundIn inRight
    exact .inr ⟨leftBus.trans rightBus.symm, .inl (by omega)⟩
  · -- The buses.
    refine List.pairwise_lt_range.imp fun less left inLeft right inRight => ?_
    obtain ⟨_, _, inLeft⟩ := List.mem_flatMap.mp inLeft
    obtain ⟨_, _, inRight⟩ := List.mem_flatMap.mp inRight
    have leftBus := (place_of_foundIn inLeft).1
    have rightBus := (place_of_foundIn inRight).1
    exact .inl (by omega)

/-- No place is before itself, so a list in their order has no place twice. -/
theorem nodup_of_ordered {locations : List Location}
    (ordered : locations.Pairwise Location.Before) :
    locations.Nodup := by
  refine ordered.imp fun {left right} before same => ?_
  rw [same] at before
  unfold Location.Before at before
  omega

/-- There are as many reachable functions as found ones. -/
theorem ncard_reachable : {location | Reachable config location}.ncard = (found config).length := by
  have same : {location | Reachable config location} =
      ((found config).toFinset : Set Location) := by
    ext location
    rw [List.coe_toFinset]
    exact mem_found.symm
  rw [same, Set.ncard_coe_finset, List.toFinset_card_of_nodup (nodup_of_ordered found_ordered)]

/-- A list of the reachable functions in their order is the list of the found ones. -/
theorem lists_iff {pci : PCI} :
    Lists config pci ↔ pci.inUse = (found config).map (deviceAt config) := by
  constructor
  · rintro ⟨locations, exactly, ordered, entries⟩
    have same : locations.Perm (found config) :=
      (List.perm_ext_iff_of_nodup (nodup_of_ordered ordered) (nodup_of_ordered found_ordered)).mpr
        fun location => (exactly location).trans mem_found.symm
    rw [entries, same.eq_of_pairwise _ ordered found_ordered]
    intro left right _ _ before after
    unfold Location.Before at before after
    omega
  · intro entries
    exact ⟨found config, fun _ => mem_found, found_ordered, entries⟩

end Scan

/-! ## The table -/

section Table

variable {width : Nat} {Registers : Type} {config : ConfigSpace} {block : PCI}
  {before middle : KernelState width Registers} {allocator : Allocator} {fuel : Nat}

/-- `Init` behind the part before the scan. -/
theorem init_ok {pci : PCI} {result : Int} {after : KernelState width Registers}
    (published : publish allocator fuel before = .ok true middle) :
    init allocator fuel config block before = .ok (result, pci) after ↔
      pciEnumeratePci config pciRegister block = .ok () pci ∧ (pci.count : Int) = result ∧
        middle = after := by
  unfold init
  rw [bind_of_ok published, if_pos rfl]
  cases ended : pciEnumeratePci config pciRegister block with
  | ok _ table =>
    simp only [pure_ok, Prod.mk.injEq, EStateM.Result.ok.injEq, true_and]
    constructor
    · rintro ⟨⟨count, rfl⟩, same⟩
      exact ⟨rfl, count, same⟩
    · rintro ⟨rfl, count, same⟩
      exact ⟨⟨count, rfl⟩, same⟩
  | error reason table => simp [throw_ok]

/-- **PCI.** When `Init` comes to the scan, it returns with a table of exactly the reachable
functions, each once and in their order, if and only if the block of the table was empty and there
are not more of them than `MAX_DEVICES`; otherwise the table is wrong or a store is behind it. -/
theorem pci_listed_iff (published : publish allocator fuel before = .ok true middle) :
    (∃ pci after, init allocator fuel config block before = .ok (pci.count, pci) after ∧
      Lists config pci) ↔
    block.count = 0 ∧ {location | Reachable config location}.ncard ≤ maxDevices := by
  have fits := @BoundedTable.appendAll_iff Stop PCIDEV maxDevices block
    ((found config).map (deviceAt config)) .outOfBounds (by decide)
  rw [forM_map, List.length_map, ← ncard_reachable] at fits
  rw [← fits]
  constructor
  · rintro ⟨pci, after, returned, lists⟩
    obtain ⟨scanned, -⟩ := (init_ok published).mp returned
    rw [pciEnumeratePci_eq] at scanned
    exact ⟨pci, scanned, lists_iff.mp lists⟩
  · rintro ⟨pci, scanned, entries⟩
    refine ⟨pci, middle, (init_ok published).mpr ⟨?_, rfl, rfl⟩, lists_iff.mpr entries⟩
    rw [pciEnumeratePci_eq]
    exact scanned

end Table

/-- A table without an entry. -/
def noDevices : PCI where
  entries := .replicate _ ⟨0, 0, 0, 0, 0, 0, 0, 0, 0, 0, 0, fun _ => 0⟩
  count := 0

/-- A kernel with a directory for devices. -/
def devKernel : KernelState 32 Unit :=
  { KernelState.bareRoot 32 () with
    live := {rootVNode, 1}
    node := fun address =>
      if address = rootVNode then { vNodeDefault 32 VNode.zero with firstChild := some 1 }
      else { VNode.zero with name := ⟨cString ['d', 'e', 'v'], 3⟩ } }

/-- `Init` comes to the scan there. -/
theorem devKernel_published : publish .next 8 devKernel =
    .ok true (stateAfter (publish .next 8) devKernel) :=
  ok_of_resultOf (by decide +kernel)

/-- A network controller on the first bus, alone. -/
def oneController : ConfigSpace := fun address =>
  if address = 0x80001800 then 0x100E8086 else if address = 0x80001808 then 0x02000003
  else if address = 0x8000180C then 0 else 0xFFFFFFFF

/-- The table after a scan that finds one function. -/
theorem pci_listed_iff_controller :
    (∃ pci after, init .next 8 oneController noDevices devKernel = .ok (pci.count, pci) after ∧
      Lists oneController pci) ↔
    noDevices.count = 0 ∧ {location | Reachable oneController location}.ncard ≤ maxDevices :=
  pci_listed_iff devKernel_published

/-- When every slot answers, a store is behind the table. -/
theorem too_many_devices : ¬ ∀ (config : ConfigSpace) (before middle : KernelState 32 Unit),
    publish .next 8 before = .ok true middle →
    ∃ pci after, init .next 8 config noDevices before = .ok (pci.count, pci) after ∧
      Lists config pci := by
  intro claim
  obtain ⟨pci, after, returned, -⟩ := claim (fun _ => 0x8086) devKernel _ devKernel_published
  have stopped : (resultOf (init .next 8 (fun _ => 0x8086) noDevices) devKernel).isNone = true := by
    decide +kernel
  unfold resultOf at stopped
  rw [returned] at stopped
  cases stopped

end Unarddeg.Pci
