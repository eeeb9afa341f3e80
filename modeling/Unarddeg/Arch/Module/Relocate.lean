import Unarddeg.Arch.Module.Layout
import Unarddeg.Library.Loop

/-!
# Relocating a module

`RelocateModule` of the two targets. The loops over the sections are the same but for the layout of
the structures. What is done with an entry depends on the target and on the format of the entry: the
four functions below are the bodies of the four inner loops, up to the look-up of the symbol, which
is one function with the differences as arguments.

An entry that is left with `return -1` makes the loops return `false`. The warnings are not
modelled: after one the loops go on.
-/

namespace Unarddeg.Elf

open Library

section Symbols

variable {width : Nat} (layout : Layout width) (env : Environment width)

/-- The address of a symbol, as the inner loops compute it, or nothing when `FindKernelSymbol` does
not know it. Only the loops over `struct elf_rela` look for `SHN_ABS`. -/
def symbolAddress (absolute : Bool) (mod : LoadedModule width) (shdr : BitVec width)
    (symIdx : BitVec 32) : Kernel (Memory width) (Option (BitVec width)) := do
  let sym := element mod.symtab layout.symbolBytes (symIdx.setWidth width)
  let stName ← load env 32 sym
  let symName := mod.strtab + stName.setWidth width
  let shndx ← load env 16 (sym + layout.stShndx)
  if shndx = shnUndef then
    let first ← load env 8 symName
    if first ≠ 0 then
      let memory ← get
      let symAddr := env.findKernelSymbol (stringAt memory symName)
      pure (if symAddr = 0 then none else some symAddr)
    else pure (some 0)
  else
    let shnum ← load env 16 (mod.base + layout.shnum)
    if shndx < shnum then
      let section_ := element shdr layout.sectionBytes (shndx.setWidth width)
      let flags ← load env width (section_ + 8)
      if flags &&& shfAlloc width ≠ 0 then
        let sectionOffset ← load env width (section_ + layout.shOffset)
        let value ← load env width (sym + layout.stValue)
        pure (some (mod.base + sectionOffset + value))
      else
        let value ← load env width (sym + layout.stValue)
        pure (some value)
    else if absolute = true ∧ shndx = shnAbs then
      let value ← load env width (sym + layout.stValue)
      pure (some value)
    else pure (some 0)

/-- The address of a symbol that is looked up only if its index lies in the table and is not 0. -/
def guardedAddress (absolute : Bool) (mod : LoadedModule width) (shdr : BitVec width)
    (symIdx : BitVec 32) : Kernel (Memory width) (Option (BitVec width)) :=
  if 0 < symIdx ∧ symIdx < mod.symcount then symbolAddress layout env absolute mod shdr symIdx
  else pure (some 0)

end Symbols

/-! ## The 32-bit target -/

namespace Ia32

variable (env : Environment 32) (mod : LoadedModule 32) (shdr : BitVec 32)

/-- The `switch` of the loop over `struct elf_rela`. -/
def relaSwitch (entry type patchAddr symAddr : BitVec 32) : Kernel (Memory 32) Unit :=
  match type with
  | 1 => do
    let addend ← load env 32 (entry + ia32.rAddend)
    store env patchAddr (symAddr + addend)
  | 2 | 4 => do
    let addend ← load env 32 (entry + ia32.rAddend)
    store env patchAddr (symAddr + addend - patchAddr)
  | 3 | 5 | 6 | 7 => store env patchAddr symAddr
  | _ => pure ()

/-- The `switch` of the loop over `struct elf_rel`. -/
def relSwitch (type patchAddr symAddr addend : BitVec 32) : Kernel (Memory 32) Unit :=
  match type with
  | 1 => store env patchAddr (symAddr + addend)
  | 2 | 4 => store env patchAddr (symAddr + addend - patchAddr)
  | 6 | 7 => store env patchAddr symAddr
  | _ => pure ()

/-- The body of the loop over `struct elf_rela`. -/
def relaEntry (targetBase table : BitVec 32) (r : Nat) : Kernel (Memory 32) Bool := do
  let entry := element table ia32.relaBytes (.ofNat 32 r)
  let info ← load env 32 (entry + ia32.rInfo)
  let type := info &&& 0xFF
  let symIdx := info >>> 8
  let offset ← load env 32 entry
  let patchAddr := targetBase + offset
  if type = 8 ∧ symIdx = 0 then
    let addend ← load env 32 (entry + ia32.rAddend)
    store env patchAddr (mod.base + addend)
    pure true
  else
    match ← guardedAddress ia32 env true mod shdr symIdx with
    | none => pure false
    | some symAddr =>
      relaSwitch env entry type patchAddr symAddr
      pure true

/-- The body of the loop over `struct elf_rel`. -/
def relEntry (targetBase table : BitVec 32) (r : Nat) : Kernel (Memory 32) Bool := do
  let entry := element table ia32.relBytes (.ofNat 32 r)
  let info ← load env 32 (entry + ia32.rInfo)
  let type := info &&& 0xFF
  let symIdx := info >>> 8
  let offset ← load env 32 entry
  let patchAddr := targetBase + offset
  let addend ← load env 32 patchAddr
  match ← symbolAddress ia32 env false mod shdr symIdx with
  | none => pure false
  | some symAddr =>
    relSwitch env type patchAddr symAddr addend
    pure true

end Ia32

/-! ## The 64-bit target -/

namespace Amd64

variable (env : Environment 64) (mod : LoadedModule 64) (shdr : BitVec 64)

/-- The `switch` of the loop over `struct elf_rela`. -/
def relaSwitch (entry : BitVec 64) (type : BitVec 32) (patchAddr symAddr : BitVec 64) :
    Kernel (Memory 64) Unit :=
  match type with
  | 1 => do
    let addend ← load env 64 (entry + amd64.rAddend)
    store env patchAddr (symAddr + addend)
  | 2 | 4 => do
    let addend ← load env 64 (entry + amd64.rAddend)
    store env patchAddr ((symAddr + addend - patchAddr).setWidth 32)
  | 6 | 7 => store env patchAddr symAddr
  | 8 => do
    let addend ← load env 64 (entry + amd64.rAddend)
    store env patchAddr (mod.base + addend)
  | _ => pure ()

/-- The `switch` of the loop over `struct elf_rel`. -/
def relSwitch (type : BitVec 32) (patchAddr symAddr addend : BitVec 64) :
    Kernel (Memory 64) Unit :=
  match type with
  | 1 => store env patchAddr (symAddr + addend)
  | 2 | 4 => store env patchAddr ((symAddr + addend - patchAddr).setWidth 32)
  | 6 | 7 => store env patchAddr symAddr
  | _ => pure ()

/-- The body of the loop over `struct elf_rela`. -/
def relaEntry (targetBase table : BitVec 64) (r : Nat) : Kernel (Memory 64) Bool := do
  let entry := element table amd64.relaBytes (.ofNat 64 r)
  let info ← load env 64 (entry + amd64.rInfo)
  let type := info.setWidth 32
  let symIdx := (info >>> 32).setWidth 32
  let offset ← load env 64 entry
  let patchAddr := targetBase + offset
  if type = 8 ∧ symIdx = 0 then
    let addend ← load env 64 (entry + amd64.rAddend)
    store env patchAddr (mod.base + addend)
    pure true
  else
    match ← guardedAddress amd64 env true mod shdr symIdx with
    | none => pure false
    | some symAddr =>
      relaSwitch env mod entry type patchAddr symAddr
      pure true

/-- The body of the loop over `struct elf_rel`. -/
def relEntry (targetBase table : BitVec 64) (r : Nat) : Kernel (Memory 64) Bool := do
  let entry := element table amd64.relBytes (.ofNat 64 r)
  let info ← load env 64 (entry + amd64.rInfo)
  let type := info.setWidth 32
  let symIdx := (info >>> 32).setWidth 32
  let offset ← load env 64 entry
  let patchAddr := targetBase + offset
  let addend ← load env 64 patchAddr
  match ← guardedAddress amd64 env false mod shdr symIdx with
  | none => pure false
  | some symAddr =>
    relSwitch env type patchAddr symAddr addend
    pure true

end Amd64

/-! ## The loops over the sections -/

/-- What is done with the entries of a target: the arguments are those of `Ia32.relaEntry`. -/
abbrev EntryLoop (width : Nat) :=
  LoadedModule width → (shdr targetBase table : BitVec width) → (r : Nat) →
    Kernel (Memory width) Bool

section Sections

variable {width : Nat} (layout : Layout width) (env : Environment width)
  (relaEntry relEntry : EntryLoop width)

/-- `i < elf->shnum`. -/
def moreSections (base : BitVec width) (i : Nat) : Kernel (Memory width) Bool := do
  let shnum ← load env 16 (base + layout.shnum)
  pure (i < shnum.toNat)

variable {layout env} in
/-- Without bounds the number of sections is read. -/
theorem moreSections_unbounded {base : BitVec width} {i : Nat} {memory : Memory width} :
    moreSections layout env.unbounded base i memory =
      .ok (decide (i < (loadAt 16 memory (base + layout.shnum)).toNat)) memory :=
  bind_of_ok load_unbounded

/-- `i < num_rel`. -/
def moreEntries (count : Nat) (r : Nat) : Kernel (Memory width) Bool := pure (r < count)

/-- The number of elements in some bytes, as an `int`. -/
def countOf (size : BitVec width) (bytes : Nat) : Nat :=
  ((size / .ofNat width bytes).setWidth 32).toInt.toNat

/-- The number of elements, where it fits an `int`. -/
theorem countOf_eq {size : BitVec width} {bytes : Nat} (positive : bytes < 2 ^ width)
    (small : size.toNat / bytes < 2 ^ 31) : countOf size bytes = size.toNat / bytes := by
  have quotient : (size / BitVec.ofNat width bytes).toNat = size.toNat / bytes := by
    rw [BitVec.toNat_udiv, BitVec.toNat_ofNat, Nat.mod_eq_of_lt positive]
  rw [countOf, BitVec.toInt_eq_toNat_of_lt, BitVec.toNat_setWidth, quotient,
    Nat.mod_eq_of_lt (by omega), Int.toNat_natCast]
  rw [BitVec.toNat_setWidth, quotient, Nat.mod_eq_of_lt (by omega)]
  omega

/-- The first loop of `RelocateModule`: it finds the symbols and the strings. The index has 16
bits. -/
def findSymtab (mod : LoadedModule width) (shdr : BitVec width) :
    (count i : Nat) → Kernel (Memory width) (LoadedModule width)
  | 0, _ => pure mod
  | count + 1, i => do
    if ← moreSections layout env mod.base i then
      let section_ := element shdr layout.sectionBytes (.ofNat width i)
      let type ← load env 32 (section_ + 4)
      if type = shtSymtab then
        let offset ← load env width (section_ + layout.shOffset)
        let size ← load env width (section_ + layout.shSize)
        let link ← load env 32 (section_ + layout.shLink)
        let strings := element shdr layout.sectionBytes (link.signExtend width)
        let stringOffset ← load env width (strings + layout.shOffset)
        pure { mod with
          symtab := mod.base + offset
          symcount := (size / .ofNat width layout.symbolBytes).setWidth 32
          strtab := mod.base + stringOffset }
      else findSymtab mod shdr count (i + 1)
    else pure mod

/-- The body of the second loop of `RelocateModule`. -/
def relocateSection (mod : LoadedModule width) (shdr : BitVec width) (i : Nat) :
    Kernel (Memory width) Bool := do
  let section_ := element shdr layout.sectionBytes (.ofNat width i)
  let type ← load env 32 (section_ + 4)
  if type ≠ shtRel ∧ type ≠ shtRela then pure true
  else
    let info ← load env 32 (section_ + layout.shInfo)
    let target := element shdr layout.sectionBytes (info.signExtend width)
    let flags ← load env width (target + 8)
    if flags &&& shfAlloc width = 0 then pure true
    else
      let targetOffset ← load env width (target + layout.shOffset)
      let tableOffset ← load env width (section_ + layout.shOffset)
      let size ← load env width (section_ + layout.shSize)
      if type = shtRela then
        let numRel := countOf size layout.relaBytes
        loop (moreEntries numRel)
          (relaEntry mod shdr (mod.base + targetOffset) (mod.base + tableOffset)) numRel 0
      else
        let numRel := countOf size layout.relBytes
        loop (moreEntries numRel)
          (relEntry mod shdr (mod.base + targetOffset) (mod.base + tableOffset)) numRel 0

/-- `RelocateModule`: whether it returns 0, and the module. -/
def relocateModule (base : BitVec width) : Kernel (Memory width) (Bool × LoadedModule width) := do
  let shoff ← load env width (base + layout.shoff)
  let shdr := base + shoff
  let mod ← findSymtab layout env ⟨base, 0, 0, 0⟩ shdr 65536 0
  let done ← loop (moreSections layout env base)
    (relocateSection layout env relaEntry relEntry mod shdr) 65536 0
  pure (done, mod)

end Sections

/-- `RelocateModule` of the 32-bit target. -/
def Ia32.relocateModule (env : Environment 32) : BitVec 32 →
    Kernel (Memory 32) (Bool × LoadedModule 32) :=
  Elf.relocateModule ia32 env (Ia32.relaEntry env) (Ia32.relEntry env)

/-- `RelocateModule` of the 64-bit target. -/
def Amd64.relocateModule (env : Environment 64) : BitVec 64 →
    Kernel (Memory 64) (Bool × LoadedModule 64) :=
  Elf.relocateModule amd64 env (Amd64.relaEntry env) (Amd64.relEntry env)

end Unarddeg.Elf
