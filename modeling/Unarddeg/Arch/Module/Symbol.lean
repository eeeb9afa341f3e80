import Unarddeg.Arch.Module.Load

/-!
# What a relocation sees of its symbol

Without bounds on the accesses the look-up of a symbol only reads, so its result is a function of
what the memory says about the symbol.
-/

namespace Unarddeg.Elf

open Library

section Strings

variable {width : Nat} {memory : Memory width} {address : BitVec width}

/-- A byte at an address. -/
theorem loadAt_byte : loadAt 8 memory address = memory address := by
  have first := @byteAt_little 8 (fun index => memory (address + .ofNat width index)) 0 (by decide)
  rw [loadAt, ← show byteAt (little 8 fun index => memory (address + .ofNat width index)) 0 =
    little 8 fun index => memory (address + .ofNat width index) from BitVec.extractLsb'_eq_self,
        first]
  simp

/-- A string is empty when it begins with its end. -/
theorem stringAt_eq_nil : stringAt memory address = [] ↔ memory address = 0 := by
  obtain ⟨bytes, size⟩ := Nat.exists_eq_add_one_of_ne_zero (Nat.ne_of_gt (Nat.two_pow_pos width))
  rw [stringAt, size, stringFrom]
  by_cases ends : memory address = 0 <;> simp [ends]

/-- A string only depends on its bytes and its end. -/
theorem stringFrom_congr {after : Memory width} {bytes : Nat}
    (same : ∀ index ≤ (stringFrom memory bytes address).length,
      after (address + .ofNat width index) = memory (address + .ofNat width index)) :
    stringFrom after bytes address = stringFrom memory bytes address := by
  induction bytes generalizing address with
  | zero => rfl
  | succ bytes ih =>
    have first : after address = memory address := by simpa using same 0 (Nat.zero_le _)
    rw [stringFrom, stringFrom, first]
    by_cases ends : memory address = 0
    · rw [if_pos ends, if_pos ends]
    · rw [if_neg ends, if_neg ends, ih]
      intro index inside
      have later := same (index + 1)
        (by rw [stringFrom, if_neg ends]; exact Nat.succ_le_succ inside)
      rwa [Nat.add_comm, BitVec.ofNat_add, ← BitVec.add_assoc] at later

end Strings

/-- What the memory says about a symbol. -/
@[ext]
structure Symbol (width : Nat) where
  /-- Its name. -/
  name : List (BitVec 8)
  /-- `st_shndx`. -/
  shndx : BitVec 16
  /-- `st_value`. -/
  value : BitVec width
  /-- `shnum`. -/
  shnum : BitVec 16
  /-- `sh_flags` of its section. -/
  flags : BitVec width
  /-- `sh_offset` of its section. -/
  sectionOffset : BitVec width

section Symbols

variable {width : Nat} (layout : Layout width)

/-- The symbol with an index. -/
def symbolOf (mod : LoadedModule width) (shdr : BitVec width) (symIdx : BitVec 32)
    (memory : Memory width) : Symbol width :=
  let sym := element mod.symtab layout.symbolBytes (symIdx.setWidth width)
  let shndx := loadAt 16 memory (sym + layout.stShndx)
  let section_ := element shdr layout.sectionBytes (shndx.setWidth width)
  { name := stringAt memory (mod.strtab + (loadAt 32 memory sym).setWidth width)
    shndx := shndx
    value := loadAt width memory (sym + layout.stValue)
    shnum := loadAt 16 memory (mod.base + layout.shnum)
    flags := loadAt width memory (section_ + 8)
    sectionOffset := loadAt width memory (section_ + layout.shOffset) }

/-- The address of a symbol of a section. -/
def Symbol.sectionAddress (symbol : Symbol width) (base : BitVec width) : BitVec width :=
  if symbol.flags &&& shfAlloc width ≠ 0 then base + symbol.sectionOffset + symbol.value
  else symbol.value

/-- What the loops take as the address of a symbol. -/
def Symbol.address (symbol : Symbol width) (findKernelSymbol : List (BitVec 8) → BitVec width)
    (absolute : Bool) (base : BitVec width) : Option (BitVec width) :=
  if symbol.shndx = shnUndef then
    if symbol.name = [] then some 0
    else if findKernelSymbol symbol.name = 0 then none
    else some (findKernelSymbol symbol.name)
  else if symbol.shndx < symbol.shnum then some (symbol.sectionAddress base)
  else if absolute = true ∧ symbol.shndx = shnAbs then some symbol.value
  else some 0

/-- The flags of the section of a symbol. -/
theorem symbolOf_flags (mod : LoadedModule width) (shdr : BitVec width) (symIdx : BitVec 32)
    (memory : Memory width) : (symbolOf layout mod shdr symIdx memory).flags =
      loadAt width memory (element shdr layout.sectionBytes
        ((symbolOf layout mod shdr symIdx memory).shndx.setWidth width) + 8) := rfl

/-- The offset of the section of a symbol. -/
theorem symbolOf_sectionOffset (mod : LoadedModule width) (shdr : BitVec width)
    (symIdx : BitVec 32) (memory : Memory width) :
    (symbolOf layout mod shdr symIdx memory).sectionOffset =
      loadAt width memory (element shdr layout.sectionBytes
        ((symbolOf layout mod shdr symIdx memory).shndx.setWidth width) + layout.shOffset) := rfl

/-- A symbol has the address 0 when nothing gives it another one. -/
theorem Symbol.address_eq_zero (symbol : Symbol width)
    {findKernelSymbol : List (BitVec 8) → BitVec width} {base : BitVec width} :
    symbol.address findKernelSymbol false base = some 0 ↔
      (symbol.shndx = shnUndef → symbol.name = []) ∧
        (symbol.shndx ≠ shnUndef → symbol.shndx < symbol.shnum →
          symbol.sectionAddress base = 0) := by
  rw [Symbol.address]
  by_cases undef : symbol.shndx = shnUndef
  · by_cases empty : symbol.name = []
    · simp [undef, empty]
    · by_cases unknown : findKernelSymbol symbol.name = 0 <;> simp [undef, empty, unknown]
  · by_cases inside : symbol.shndx < symbol.shnum <;> simp [undef, inside]

/-- The look for `SHN_ABS` matters for absolute symbols with a value. -/
theorem Symbol.address_absolute (symbol : Symbol width)
    {findKernelSymbol : List (BitVec 8) → BitVec width} {base : BitVec width} :
    symbol.address findKernelSymbol true base = symbol.address findKernelSymbol false base ↔
      (symbol.shndx = shnAbs → symbol.shnum ≤ shnAbs → symbol.value = 0) := by
  simp only [Symbol.address]
  by_cases undef : symbol.shndx = shnUndef
  · have notAbs : symbol.shndx ≠ shnAbs := fun abs => absurd (undef.symm.trans abs) (by decide)
    simp [undef, undef ▸ notAbs]
  · by_cases inside : symbol.shndx < symbol.shnum
    · have notAbove : symbol.shndx = shnAbs → ¬ symbol.shnum ≤ shnAbs := fun abs above =>
        BitVec.not_lt.mpr above (abs ▸ inside)
      simpa [undef, inside] using fun abs above => absurd above (notAbove abs)
    · by_cases abs : symbol.shndx = shnAbs
      · have above : symbol.shnum ≤ shnAbs := abs ▸ BitVec.not_lt.mp inside
        simp [abs, above, show shnAbs ≠ shnUndef by decide, abs ▸ inside]
      · simp [undef, inside, abs]

variable {layout} {env : Environment width} {mod : LoadedModule width} {shdr : BitVec width}
  {symIdx : BitVec 32} {memory : Memory width} {absolute : Bool}

/-- The look-up of a symbol changes nothing. -/
theorem symbolAddress_unbounded :
    symbolAddress layout env.unbounded absolute mod shdr symIdx memory =
      .ok ((symbolOf layout mod shdr symIdx memory).address env.findKernelSymbol absolute mod.base)
        memory := by
  simp only [symbolAddress, load_unbounded_bind]
  rw [Symbol.address]
  by_cases undef : (symbolOf layout mod shdr symIdx memory).shndx = shnUndef
  · rw [if_pos undef, if_pos (show loadAt 16 memory _ = _ from undef), load_unbounded_bind,
      loadAt_byte]
    by_cases empty : (symbolOf layout mod shdr symIdx memory).name = []
    · rw [if_pos empty, if_neg (not_not.mpr (stringAt_eq_nil.mp empty))]
      rfl
    · rw [if_neg empty, if_pos (mt stringAt_eq_nil.mpr empty)]
      exact congrArg (EStateM.Result.ok · memory) rfl
  · rw [if_neg undef, if_neg (show ¬ loadAt 16 memory _ = _ from undef), load_unbounded_bind]
    by_cases inside : (symbolOf layout mod shdr symIdx memory).shndx <
        (symbolOf layout mod shdr symIdx memory).shnum
    · rw [if_pos inside, if_pos (show loadAt 16 memory _ < loadAt 16 memory _ from inside),
        load_unbounded_bind, Symbol.sectionAddress]
      by_cases alloc : (symbolOf layout mod shdr symIdx memory).flags &&& shfAlloc width ≠ 0
      · rw [if_pos alloc, if_pos (show loadAt width memory _ &&& _ ≠ 0 from alloc),
          load_unbounded_bind, load_unbounded_bind]
        rfl
      · rw [if_neg alloc, if_neg (show ¬ loadAt width memory _ &&& _ ≠ 0 from alloc),
          load_unbounded_bind]
        rfl
    · rw [if_neg inside, if_neg (show ¬ loadAt 16 memory _ < loadAt 16 memory _ from inside)]
      by_cases abs : absolute = true ∧ (symbolOf layout mod shdr symIdx memory).shndx = shnAbs
      · rw [if_pos abs, if_pos (show _ ∧ loadAt 16 memory _ = _ from abs), load_unbounded_bind]
        rfl
      · rw [if_neg abs, if_neg (show ¬ (_ ∧ loadAt 16 memory _ = _) from abs)]
        rfl

/-- The guarded look-up of a symbol changes nothing. -/
theorem guardedAddress_unbounded :
    guardedAddress layout env.unbounded absolute mod shdr symIdx memory =
      .ok (if 0 < symIdx ∧ symIdx < mod.symcount then
        (symbolOf layout mod shdr symIdx memory).address env.findKernelSymbol absolute mod.base
      else some 0) memory := by
  rw [guardedAddress]
  by_cases guarded : 0 < symIdx ∧ symIdx < mod.symcount
  · rw [if_pos guarded, if_pos guarded, symbolAddress_unbounded]
  · rw [if_neg guarded, if_neg guarded]
    rfl

end Symbols

end Unarddeg.Elf
