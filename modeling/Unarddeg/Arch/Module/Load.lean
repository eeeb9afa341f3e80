import Unarddeg.Arch.Module.Relocate

/-!
# Loading a module

`FindSymbol`, `CallConstructors` and `LoadModule`, the same on the two targets but for the layout of
the structures. A module is relocated where it lies; then its `Init` and its constructors are
called.
-/

namespace Unarddeg.Elf

open Library

/-- How `LoadModule` ends. -/
inductive Outcome (width : Nat)
  /-- It printed `[Error] Not an ELF file`. -/
  | notElf
  /-- It printed `[Error] Not relocatable ELF`. -/
  | notRelocatable
  /-- It printed `[Error] Relocation failed`. -/
  | relocationFailed
  /-- It printed `[Info] Module loaded successfully`. `Init` was called in the memory given, unless
  its address is null, and then the constructors. -/
  | loaded (init : BitVec width) (atInit : Memory width) (constructors : List (BitVec width))

section Load

variable {width : Nat} (layout : Layout width) (env : Environment width)

/-- A chain of `&&` over the bytes at an address. -/
def bytesAre : BitVec width → List (BitVec 8) → Kernel (Memory width) Bool
  | _, [] => pure true
  | address, byte :: bytes => do
    let first ← load env 8 address
    if first = byte then bytesAre (address + 1) bytes else pure false

/-- `strncmp` of the string at an address and another one: whether it returns 0. -/
def strncmpAt : (len : Nat) → BitVec width → List (BitVec 8) → Kernel (Memory width) Bool
  | 0, _, _ => pure true
  | len + 1, address, rhs => do
    let left ← load env 8 address
    let right := rhs.headD 0
    if left ≠ right ∨ left = 0 then pure (left = right)
    else strncmpAt len (address + 1) rhs.tail

/-- The address of a symbol that `FindSymbol` found. -/
def foundAddress (base shdr sym : BitVec width) : Kernel (Memory width) (BitVec width) := do
  let sectionIdx ← load env 16 (sym + layout.stShndx)
  if sectionIdx = shnAbs then load env width (sym + layout.stValue)
  else if sectionIdx = shnCommon then
    let value ← load env width (sym + layout.stValue)
    pure (base + value)
  else
    let shnum ← load env 16 (base + layout.shnum)
    if sectionIdx < shnum ∧ sectionIdx ≠ shnUndef then
      let section_ := element shdr layout.sectionBytes (sectionIdx.setWidth width)
      let sectionOffset ← load env width (section_ + layout.shOffset)
      let value ← load env width (sym + layout.stValue)
      pure (base + sectionOffset + value)
    else if sectionIdx = shnUndef then pure 0
    else
      let value ← load env width (sym + layout.stValue)
      pure (base + value)

/-- The loop of `FindSymbol`. -/
def findSymbolFrom (mod : LoadedModule width) (shdr : BitVec width) (name : List (BitVec 8)) :
    (rounds i : Nat) → Kernel (Memory width) (BitVec width)
  | 0, _ => pure 0
  | rounds + 1, i => do
    let sym := element mod.symtab layout.symbolBytes (.ofNat width i)
    let stName ← load env 32 sym
    let symName := mod.strtab + stName.setWidth width
    panicIf (symName = 0) .nullPointerDereference
    if ← strncmpAt env 128 symName name then foundAddress layout env mod.base shdr sym
    else findSymbolFrom mod shdr name rounds (i + 1)

/-- `FindSymbol`. -/
def findSymbol (mod : LoadedModule width) (name : List (BitVec 8)) :
    Kernel (Memory width) (BitVec width) := do
  let shoff ← load env width (mod.base + layout.shoff)
  findSymbolFrom layout env mod (mod.base + shoff) name mod.symcount.toNat 0

/-- The inner loop of `CallConstructors`: the functions that it called. -/
def callSlots (initFuncs : BitVec width) : (rounds c : Nat) →
    Kernel (Memory width) (List (BitVec width))
  | 0, _ => pure []
  | rounds + 1, c => do
    let function ← load env width (element initFuncs (width / 8) (.ofNat width c))
    if function = 0 then callSlots initFuncs rounds (c + 1)
    else
      modify (env.call function)
      let later ← callSlots initFuncs rounds (c + 1)
      pure (function :: later)

/-- The loop of `CallConstructors`. -/
def callConstructorsFrom (base shdr : BitVec width) : (count i : Nat) →
    Kernel (Memory width) (List (BitVec width))
  | 0, _ => pure []
  | count + 1, i => do
    if ← moreSections layout env base i then
      let section_ := element shdr layout.sectionBytes (.ofNat width i)
      let type ← load env 32 (section_ + 4)
      if type = shtInitArray then
        let flags ← load env width (section_ + 8)
        if flags &&& shfAlloc width = 0 then callConstructorsFrom base shdr count (i + 1)
        else
          let offset ← load env width (section_ + layout.shOffset)
          let size ← load env width (section_ + layout.shSize)
          let first ← callSlots env (base + offset) (countOf size (width / 8)) 0
          let later ← callConstructorsFrom base shdr count (i + 1)
          pure (first ++ later)
      else callConstructorsFrom base shdr count (i + 1)
    else pure []

/-- `CallConstructors`. -/
def callConstructors (base : BitVec width) : Kernel (Memory width) (List (BitVec width)) := do
  let shoff ← load env width (base + layout.shoff)
  callConstructorsFrom layout env base (base + shoff) 65536 0

/-- `LoadModule`, with the `RelocateModule` of a target. -/
def loadModule (relocate : BitVec width → Kernel (Memory width) (Bool × LoadedModule width))
    (addr : BitVec width) : Kernel (Memory width) (Outcome width) := do
  if ← bytesAre env addr [0x7F, 0x45, 0x4C, 0x46] then
    let type ← load env 16 (addr + 16)
    if type ≠ etRel then pure .notRelocatable
    else
      let (done, mod) ← relocate addr
      if done then
        let init ← findSymbol layout env mod [0x49, 0x6E, 0x69, 0x74]
        let atInit ← get
        onlyIf (init ≠ 0) do
          modify (env.call init)
        let constructors ← callConstructors layout env addr
        pure (.loaded init atInit constructors)
      else pure .relocationFailed
  else pure .notElf

end Load

section Loaded

variable {width : Nat} {layout : Layout width} {env : Environment width} {address : BitVec width}
  {memory after : Memory width}

/-- Comparing bytes changes nothing. -/
theorem bytesAre_ok {bytes : List (BitVec 8)} {result : Bool}
    (returned : bytesAre env address bytes memory = .ok result after) : after = memory := by
  induction bytes generalizing address with
  | nil => exact (pure_ok.mp returned).2.symm
  | cons byte bytes ih =>
    obtain ⟨first, middle, read, rest⟩ := bind_ok.mp returned
    obtain ⟨_, _, rfl⟩ := load_ok.mp read
    rcases ite_ok.mp rest with ⟨_, later⟩ | ⟨_, done⟩
    · exact ih later
    · exact (pure_ok.mp done).2.symm

/-- Comparing strings changes nothing. -/
theorem strncmpAt_ok {len : Nat} {rhs : List (BitVec 8)} {result : Bool}
    (returned : strncmpAt env len address rhs memory = .ok result after) : after = memory := by
  induction len generalizing address rhs with
  | zero => exact (pure_ok.mp returned).2.symm
  | succ len ih =>
    obtain ⟨left, middle, read, rest⟩ := bind_ok.mp returned
    obtain ⟨_, _, rfl⟩ := load_ok.mp read
    rcases ite_ok.mp rest with ⟨_, done⟩ | ⟨_, later⟩
    · exact (pure_ok.mp done).2.symm
    · exact ih later

/-- A read and a value of it change nothing. -/
theorem load_pure_ok {bits : Nat} {α : Type} {value : BitVec bits → α} {result : α}
    (returned : (load env bits address >>= fun word => pure (value word)) memory =
      .ok result after) : after = memory := by
  obtain ⟨_, middle, read, done⟩ := bind_ok.mp returned
  obtain ⟨_, _, rfl⟩ := load_ok.mp read
  exact (pure_ok.mp done).2.symm

/-- The address of a symbol is only read. -/
theorem foundAddress_ok {base shdr sym result : BitVec width}
    (returned : foundAddress layout env base shdr sym memory = .ok result after) :
    after = memory := by
  obtain ⟨_, middle, read, rest⟩ := bind_ok.mp returned
  obtain ⟨_, _, rfl⟩ := load_ok.mp read
  rcases ite_ok.mp rest with ⟨_, value⟩ | ⟨_, rest⟩
  · exact (load_ok.mp value).2.2.symm
  rcases ite_ok.mp rest with ⟨_, value⟩ | ⟨_, rest⟩
  · exact load_pure_ok value
  obtain ⟨_, second, read, rest⟩ := bind_ok.mp rest
  obtain ⟨_, _, rfl⟩ := load_ok.mp read
  rcases ite_ok.mp rest with ⟨_, rest⟩ | ⟨_, rest⟩
  · obtain ⟨_, third, read, value⟩ := bind_ok.mp rest
    obtain ⟨_, _, rfl⟩ := load_ok.mp read
    exact load_pure_ok value
  rcases ite_ok.mp rest with ⟨_, done⟩ | ⟨_, value⟩
  · exact (pure_ok.mp done).2.symm
  · exact load_pure_ok value

/-- The loop of `FindSymbol` only reads. -/
theorem findSymbolFrom_ok {mod : LoadedModule width} {shdr : BitVec width}
    {name : List (BitVec 8)} {rounds i : Nat} {result : BitVec width}
    (returned : findSymbolFrom layout env mod shdr name rounds i memory = .ok result after) :
    after = memory := by
  induction rounds generalizing i with
  | zero => exact (pure_ok.mp returned).2.symm
  | succ rounds ih =>
    obtain ⟨_, first, read, rest⟩ := bind_ok.mp returned
    obtain ⟨_, _, rfl⟩ := load_ok.mp read
    obtain ⟨_, second, checks, rest⟩ := bind_ok.mp rest
    obtain ⟨_, rfl⟩ := panicIf_ok.mp checks
    obtain ⟨same, third, compares, branch⟩ := bind_ok.mp rest
    obtain rfl := strncmpAt_ok compares
    rcases ite_ok.mp branch with ⟨_, found⟩ | ⟨_, later⟩
    · exact foundAddress_ok found
    · exact ih later

/-- `FindSymbol` only reads. -/
theorem findSymbol_ok {mod : LoadedModule width} {name : List (BitVec 8)} {result : BitVec width}
    (returned : findSymbol layout env mod name memory = .ok result after) : after = memory := by
  obtain ⟨_, middle, read, rest⟩ := bind_ok.mp returned
  obtain ⟨_, _, rfl⟩ := load_ok.mp read
  exact findSymbolFrom_ok rest

/-- A module is loaded only after `RelocateModule` returned 0. -/
theorem loadModule_loaded
    {relocate : BitVec width → Kernel (Memory width) (Bool × LoadedModule width)}
    {init : BitVec width} {atInit : Memory width} {constructors : List (BitVec width)}
    (returned : loadModule layout env relocate address memory =
      .ok (.loaded init atInit constructors) after) :
    ∃ mod middle, relocate address memory = .ok (true, mod) middle ∧
      findSymbol layout env mod [0x49, 0x6E, 0x69, 0x74] middle = .ok init atInit := by
  obtain ⟨elf, middle, read, rest⟩ := bind_ok.mp returned
  obtain rfl := bytesAre_ok read
  rcases ite_ok.mp rest with ⟨_, rest⟩ | ⟨_, done⟩
  · obtain ⟨type, middle, typeRead, rest⟩ := bind_ok.mp rest
    obtain ⟨_, _, rfl⟩ := load_ok.mp typeRead
    rcases ite_ok.mp rest with ⟨_, done⟩ | ⟨_, rest⟩
    · cases (pure_ok.mp done).1
    · obtain ⟨⟨done, mod⟩, middle, relocated, rest⟩ := bind_ok.mp rest
      rcases ite_ok.mp rest with ⟨rfl, rest⟩ | ⟨_, failed⟩
      · obtain ⟨found, second, search, rest⟩ := bind_ok.mp rest
        obtain ⟨now, third, here, rest⟩ := bind_ok.mp rest
        obtain ⟨rfl, rfl⟩ := get_ok.mp here
        obtain ⟨_, _, _, rest⟩ := bind_ok.mp rest
        obtain ⟨_, _, _, rest⟩ := bind_ok.mp rest
        cases (pure_ok.mp rest).1
        exact ⟨mod, middle, relocated, search⟩
      · cases (pure_ok.mp failed).1
  · cases (pure_ok.mp done).1

end Loaded

/-- `LoadModule` of the 32-bit target. -/
def Ia32.loadModule (env : Environment 32) : BitVec 32 → Kernel (Memory 32) (Outcome 32) :=
  Elf.loadModule ia32 env (Ia32.relocateModule env)

/-- `LoadModule` of the 64-bit target. -/
def Amd64.loadModule (env : Environment 64) : BitVec 64 → Kernel (Memory 64) (Outcome 64) :=
  Elf.loadModule amd64 env (Amd64.relocateModule env)

end Unarddeg.Elf
