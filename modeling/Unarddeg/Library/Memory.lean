import Unarddeg.Library.Bytes

/-!
# Byte-addressed memory

A memory gives a byte to every address of some width; addresses wrap. Words are stored with the
lowest byte first. `patchAll` changes words in place, one after the other; words that lie apart are
each changed once (`loadAt_patchAll`), and no other byte is (`patchAll_outside`).
-/

namespace Unarddeg.Library

/-- A memory with addresses of some width. -/
abbrev Memory (width : Nat) := BitVec width → BitVec 8

section Words

variable {width : Nat}

/-- The word at an address. -/
def loadAt (bits : Nat) (memory : Memory width) (address : BitVec width) : BitVec bits :=
  little bits fun index => memory (address + .ofNat width index)

/-- A byte lies in the bytes from an address on. -/
def Within (address : BitVec width) (bytes : Nat) (other : BitVec width) : Prop :=
  (other - address).toNat < bytes

instance (address : BitVec width) (bytes : Nat) (other : BitVec width) :
    Decidable (Within address bytes other) :=
  inferInstanceAs (Decidable (_ < _))

/-- The memory after a word was stored. -/
def storeAt {bits : Nat} (memory : Memory width) (address : BitVec width) (value : BitVec bits) :
    Memory width := fun other =>
  if Within address (bits / 8) other then byteAt value (other - address).toNat else memory other

/-- Two ranges of bytes have none in common. -/
def Apart (address : BitVec width) (bytes : Nat) (other : BitVec width) (otherBytes : Nat) : Prop :=
  ∀ place, Within address bytes place → ¬ Within other otherBytes place

variable {memory after : Memory width} {address other place : BitVec width} {bits bytes : Nat}

/-- A byte of a range. -/
theorem within_add {index : Nat} (inside : index < bytes) :
    Within address bytes (address + .ofNat width index) := by
  rw [Within, BitVec.add_comm, BitVec.add_sub_cancel, BitVec.toNat_ofNat]
  exact Nat.lt_of_le_of_lt (Nat.mod_le ..) inside

/-- A part of a range. -/
theorem within_part {index count : Nat} (inside : index + count ≤ bytes) (small : bytes ≤ 2 ^ width)
    (part : Within (address + .ofNat width index) count place) : Within address bytes place := by
  have split : place - address = (place - (address + .ofNat width index)) + .ofNat width index := by
    rw [← BitVec.sub_sub, BitVec.sub_add_cancel]
  rw [Within] at part
  rw [Within, split, BitVec.toNat_add, BitVec.toNat_ofNat, Nat.add_mod_mod,
    Nat.mod_eq_of_lt (by omega)]
  omega

/-- A range that lies apart lies apart from every part. -/
theorem Apart.part {otherBytes index count : Nat} (apart : Apart address bytes other otherBytes)
    (inside : index + count ≤ otherBytes) (small : otherBytes ≤ 2 ^ width) :
    Apart address bytes (other + .ofNat width index) count := fun place here part =>
  apart place here (within_part inside small part)

/-- Ranges lie apart from each other. -/
theorem Apart.symm {otherBytes : Nat} (apart : Apart address bytes other otherBytes) :
    Apart other otherBytes address bytes := fun place inside outside => apart place outside inside

/-- The bytes of a range that does not wrap. -/
theorem within_iff (small : address.toNat + bytes ≤ 2 ^ width) : Within address bytes place ↔
    address.toNat ≤ place.toNat ∧ place.toNat < address.toNat + bytes := by
  have bound := place.isLt
  rw [Within]
  by_cases above : address.toNat ≤ place.toNat
  · rw [BitVec.toNat_sub_of_le (BitVec.le_def.mpr above)]
    omega
  · rw [BitVec.toNat_sub]
    have wraps : 2 ^ width - address.toNat + place.toNat < 2 ^ width := by omega
    rw [Nat.mod_eq_of_lt wraps]
    omega

/-- One range ends before the other begins, and none wraps. -/
def Separate (address : BitVec width) (bytes : Nat) (other : BitVec width) (otherBytes : Nat) :
    Prop :=
  address.toNat + bytes ≤ 2 ^ width ∧ other.toNat + otherBytes ≤ 2 ^ width ∧
    (address.toNat + bytes ≤ other.toNat ∨ other.toNat + otherBytes ≤ address.toNat)

instance (address : BitVec width) (bytes : Nat) (other : BitVec width) (otherBytes : Nat) :
    Decidable (Separate address bytes other otherBytes) :=
  inferInstanceAs (Decidable (_ ∧ _))

/-- Separate ranges have no bytes in common. -/
theorem Separate.apart {otherBytes : Nat} (separate : Separate address bytes other otherBytes) :
    Apart address bytes other otherBytes := by
  obtain ⟨small, otherSmall, order⟩ := separate
  intro place inside otherInside
  rw [within_iff small] at inside
  rw [within_iff otherSmall] at otherInside
  omega

/-- Words only depend on their bytes. -/
theorem loadAt_congr (whole : 8 * (bits / 8) = bits)
    (same : ∀ place, Within address (bits / 8) place → after place = memory place) :
    loadAt bits after address = loadAt bits memory address :=
  little_congr fun index inside => same _ (within_add (by omega))

/-- Outside the word stored nothing changes. -/
theorem storeAt_outside {value : BitVec bits} (outside : ¬ Within address (bits / 8) place) :
    storeAt memory address value place = memory place :=
  if_neg outside

/-- The word stored is read back. -/
theorem loadAt_storeAt (small : bits / 8 < 2 ^ width) (whole : 8 * (bits / 8) = bits)
    (value : BitVec bits) : loadAt bits (storeAt memory address value) address = value := by
  refine Eq.trans (little_congr fun index inside => ?_) little_byteAt
  rw [storeAt, if_pos (within_add (by omega)), BitVec.add_comm, BitVec.add_sub_cancel,
    BitVec.toNat_ofNat, Nat.mod_eq_of_lt (by omega)]

/-- Storing the word that is there changes nothing. -/
theorem storeAt_loadAt (whole : 8 * (bits / 8) = bits) :
    storeAt memory address (loadAt bits memory address) = memory := by
  funext place
  by_cases inside : Within address (bits / 8) place
  · rw [storeAt, if_pos inside, loadAt, byteAt_little (by rw [Within] at inside; omega)]
    congr 1
    rw [BitVec.ofNat_toNat, BitVec.setWidth_eq, BitVec.add_comm, BitVec.sub_add_cancel]
  · exact storeAt_outside inside

/-- A word apart from the one stored is read as before. -/
theorem loadAt_storeAt_apart {count : Nat} {value : BitVec count}
    (whole : 8 * (bits / 8) = bits) (apart : Apart address (count / 8) other (bits / 8)) :
    loadAt bits (storeAt memory address value) other = loadAt bits memory other :=
  loadAt_congr whole fun place inside => storeAt_outside (apart.symm place inside)

/-- Different words leave different memories. -/
theorem storeAt_injective (small : bits / 8 < 2 ^ width) (whole : 8 * (bits / 8) = bits)
    {value word : BitVec bits} :
    storeAt memory address value = storeAt memory address word ↔ value = word := by
  refine ⟨fun same => ?_, fun same => same ▸ rfl⟩
  rw [← @loadAt_storeAt _ memory address _ small whole value, same,
    loadAt_storeAt small whole]

/-- Storing a word changes nothing exactly when it is there. -/
theorem storeAt_eq_self (small : bits / 8 < 2 ^ width) (whole : 8 * (bits / 8) = bits)
    {value : BitVec bits} :
    storeAt memory address value = memory ↔ value = loadAt bits memory address := by
  refine ⟨fun same => ?_, fun same => same ▸ storeAt_loadAt whole⟩
  exact (storeAt_injective small whole).mp (same.trans (storeAt_loadAt whole).symm)

end Words

/-! ## Patches -/

section Intervals

/-! An interval of addresses does not wrap; a copy that starts inside it can run over its end and
over the end of the address space. -/

variable {width : Nat}

/-- An address lies in the interval of some size from an address on. -/
def InInterval (low : BitVec width) (size : Nat) (address : BitVec width) : Prop :=
  low.toNat ≤ address.toNat ∧ address.toNat < low.toNat + size

/-- A part of an interval, given by its distance from the start and its size. -/
def PartOf (low : BitVec width) (size : Nat) (distance : BitVec width) (count : Nat) : Prop :=
  distance.toNat + count ≤ size ∧ low.toNat + distance.toNat + count ≤ 2 ^ width

variable {low distance : BitVec width} {size count index : Nat}

/-- An address as a number. -/
theorem toNat_distance (index : Nat) : (low + distance + .ofNat width index).toNat =
    (low.toNat + distance.toNat + index) % 2 ^ width := by
  rw [BitVec.toNat_add, BitVec.toNat_add, BitVec.toNat_ofNat, ← Nat.add_mod]

/-- An interval holds its parts. -/
theorem PartOf.inInterval (part : PartOf low size distance count) (inside : index < count) :
    InInterval low size (low + distance + .ofNat width index) := by
  have room := part.1
  have straight := part.2
  rw [InInterval, toNat_distance, Nat.mod_eq_of_lt (by omega)]
  omega

/-- Addresses of an interval are a part of it, unless it holds every address. -/
theorem partOf_of_inInterval (some : 0 < count)
    (inside : ∀ index < count, InInterval low size (low + distance + .ofNat width index)) :
    PartOf low size distance count ∨ low = 0 ∧ 2 ^ width ≤ size := by
  have lowBound := low.isLt
  have distanceBound := distance.isLt
  simp only [InInterval, toNat_distance] at inside
  -- The first address does not wrap, for it is not in front of the interval.
  have first : low.toNat + distance.toNat < 2 ^ width := by
    by_contra wraps
    have front := (inside 0 some).1
    rw [Nat.add_zero, Nat.mod_eq_sub_mod (by omega), Nat.mod_eq_of_lt (by omega)] at front
    omega
  by_cases straight : low.toNat + distance.toNat + count ≤ 2 ^ width
  · have last := (inside (count - 1) (by omega)).2
    rw [Nat.mod_eq_of_lt (by omega)] at last
    exact .inl ⟨by omega, straight⟩
  · -- The addresses wrap, so the first and the last one of all are among them.
    obtain ⟨before, wraps⟩ : ∃ before, low.toNat + distance.toNat + before + 1 = 2 ^ width :=
      ⟨2 ^ width - (low.toNat + distance.toNat) - 1, by omega⟩
    have zero := (inside (before + 1) (by omega)).1
    have last := (inside before (by omega)).2
    rw [← Nat.add_assoc, wraps, Nat.mod_self] at zero
    rw [Nat.mod_eq_of_lt (by omega)] at last
    refine .inr ⟨BitVec.eq_of_toNat_eq (Nat.le_zero.mp zero), ?_⟩
    omega

/-- Addresses one behind the other are all in an interval exactly when there are none of them, when
they are a part of it, or when it holds every address. -/
theorem forall_inInterval_iff :
    (∀ index < count, InInterval low size (low + distance + .ofNat width index)) ↔
      count = 0 ∨ PartOf low size distance count ∨ low = 0 ∧ 2 ^ width ≤ size := by
  constructor
  · intro inside
    rcases Nat.eq_zero_or_pos count with none | some
    · exact .inl none
    · exact .inr (partOf_of_inInterval some inside)
  · rintro (rfl | part | ⟨rfl, all⟩) index below
    · cases below
    · exact part.inInterval below
    · exact ⟨Nat.zero_le _, Nat.lt_of_lt_of_le (BitVec.isLt _) (by omega)⟩

end Intervals

section Patches

variable {width bits : Nat}

/-- A change of the word at an address. -/
structure Patch (width bits : Nat) where
  /-- The address of the word. -/
  place : BitVec width
  /-- The new word for the old one. -/
  change : BitVec bits → BitVec bits

/-- The memory after a patch. -/
def Patch.apply (patch : Patch width bits) (memory : Memory width) : Memory width :=
  storeAt memory patch.place (patch.change (loadAt bits memory patch.place))

/-- The memory after some patches. -/
def patchAll (patches : List (Patch width bits)) (memory : Memory width) : Memory width :=
  patches.foldl (fun memory patch => patch.apply memory) memory

variable {patches : List (Patch width bits)} {memory : Memory width} {place : BitVec width}

/-- A byte outside all patches is as it was. -/
theorem patchAll_outside
    (outside : ∀ patch ∈ patches, ¬ Within patch.place (bits / 8) place) :
    patchAll patches memory place = memory place := by
  induction patches generalizing memory with
  | nil => rfl
  | cons patch patches ih =>
    rw [patchAll, List.foldl_cons, ← patchAll,
      ih fun later member => outside later (List.mem_cons_of_mem _ member)]
    exact storeAt_outside (outside patch List.mem_cons_self)

/-- A word apart from all patches is as it was. -/
theorem loadAt_patchAll_apart (whole : 8 * (bits / 8) = bits)
    (apart : ∀ patch ∈ patches, Apart patch.place (bits / 8) place (bits / 8)) :
    loadAt bits (patchAll patches memory) place = loadAt bits memory place :=
  loadAt_congr whole fun inner inside =>
    patchAll_outside fun patch member => (apart patch member).symm inner inside

/-- Of words that lie apart each is changed once. -/
theorem loadAt_patchAll (small : bits / 8 < 2 ^ width) (whole : 8 * (bits / 8) = bits)
    (apart : patches.Pairwise fun patch later =>
      Apart patch.place (bits / 8) later.place (bits / 8))
    {patch : Patch width bits} (member : patch ∈ patches) :
    loadAt bits (patchAll patches memory) patch.place =
      patch.change (loadAt bits memory patch.place) := by
  induction patches generalizing memory with
  | nil => cases member
  | cons first patches ih =>
    obtain ⟨fromFirst, rest⟩ := List.pairwise_cons.mp apart
    rw [patchAll, List.foldl_cons, ← patchAll]
    rcases List.mem_cons.mp member with rfl | later
    · rw [loadAt_patchAll_apart whole fun other inside => (fromFirst other inside).symm,
        Patch.apply, loadAt_storeAt small whole]
    · rw [ih rest later, Patch.apply,
        loadAt_storeAt_apart whole (fromFirst patch later)]

end Patches

end Unarddeg.Library
