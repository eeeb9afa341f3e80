import Unarddeg.Kernel.Panic
import Unarddeg.Library.Memory

/-!
# The structures of a module file

`module.h` of the two targets: where the fields of the ELF structures lie, and the constants that
the loader compares them with. A module is memory; its loader reads the fields through pointers
into it, so a value may change between two reads.

`uintptr_t` has the width of an address. An access outside the memory that an environment allows
stops the function.
-/

namespace Unarddeg.Elf

open Library

/-- Where the fields of the structures lie. `st_name` and `r_offset` come first in theirs, and
`sh_type` behind a word of 4 bytes. -/
structure Layout (width : Nat) where
  /-- `shoff` in `struct elf_header`. -/
  shoff : BitVec width
  /-- `shnum`. -/
  shnum : BitVec width
  /-- The bytes of `struct elf_header`. -/
  headerBytes : Nat
  /-- The bytes of `struct elf_section_header`. -/
  sectionBytes : Nat
  /-- `sh_offset` in it. -/
  shOffset : BitVec width
  /-- `sh_size`. -/
  shSize : BitVec width
  /-- `sh_link`. -/
  shLink : BitVec width
  /-- `sh_info`. -/
  shInfo : BitVec width
  /-- The bytes of `struct elf_symbol`. -/
  symbolBytes : Nat
  /-- `st_value` in it. -/
  stValue : BitVec width
  /-- `st_shndx`. -/
  stShndx : BitVec width
  /-- The bytes of `struct elf_rela`. -/
  relaBytes : Nat
  /-- The bytes of `struct elf_rel`. -/
  relBytes : Nat
  /-- `r_info` in both. -/
  rInfo : BitVec width
  /-- `r_addend`. -/
  rAddend : BitVec width

/-- The structures of `ia32/module.h`. -/
def ia32 : Layout 32 where
  shoff := 32
  shnum := 48
  headerBytes := 52
  sectionBytes := 40
  shOffset := 16
  shSize := 20
  shLink := 24
  shInfo := 28
  symbolBytes := 16
  stValue := 4
  stShndx := 14
  relaBytes := 12
  relBytes := 8
  rInfo := 4
  rAddend := 8

/-- The structures of `amd64/module.h`. -/
def amd64 : Layout 64 where
  shoff := 40
  shnum := 60
  headerBytes := 64
  sectionBytes := 64
  shOffset := 24
  shSize := 32
  shLink := 40
  shInfo := 44
  symbolBytes := 24
  stValue := 8
  stShndx := 6
  relaBytes := 24
  relBytes := 16
  rInfo := 8
  rAddend := 16

/-- `SHT_SYMTAB`. -/
def shtSymtab : BitVec 32 := 2
/-- `SHT_RELA`. -/
def shtRela : BitVec 32 := 4
/-- `SHT_NOBITS`. -/
def shtNobits : BitVec 32 := 8
/-- `SHT_REL`. -/
def shtRel : BitVec 32 := 9
/-- `SHT_INIT_ARRAY`. -/
def shtInitArray : BitVec 32 := 14
/-- `SHF_ALLOC`. -/
def shfAlloc (width : Nat) : BitVec width := 2
/-- `SHN_UNDEF`. -/
def shnUndef : BitVec 16 := 0
/-- `SHN_ABS`. -/
def shnAbs : BitVec 16 := 0xFFF1
/-- `SHN_COMMON`. -/
def shnCommon : BitVec 16 := 0xFFF2
/-- `ET_REL`. -/
def etRel : BitVec 16 := 1

/-- What a module loader is run with. -/
structure Environment (width : Nat) where
  /-- The bytes that may be read and written: an address and a number of bytes. -/
  inside : BitVec width → Nat → Bool
  /-- `FindKernelSymbol`. The null pointer means that there is no such symbol. -/
  findKernelSymbol : List (BitVec 8) → BitVec width
  /-- A call of the code at an address: what it makes of the memory. -/
  call : BitVec width → Memory width → Memory width

/-- `struct loaded_module`, as far as it is used. -/
structure LoadedModule (width : Nat) where
  /-- `base`. -/
  base : BitVec width
  /-- `symtab`. -/
  symtab : BitVec width
  /-- `strtab`. -/
  strtab : BitVec width
  /-- `symcount`. -/
  symcount : BitVec 32

section Access

variable {width : Nat} (env : Environment width)

/-- A read through a pointer. -/
def load (bits : Nat) (address : BitVec width) : Kernel (Memory width) (BitVec bits) := do
  let memory ← get
  if env.inside address (bits / 8) then pure (loadAt bits memory address)
  else throw .outOfBounds

/-- A write through a pointer. -/
def store {bits : Nat} (address : BitVec width) (value : BitVec bits) :
    Kernel (Memory width) Unit := do
  let memory ← get
  if env.inside address (bits / 8) then set (storeAt memory address value)
  else throw .outOfBounds

/-- The bytes of a string before its end, of at most some bytes. -/
def stringFrom (memory : Memory width) : Nat → BitVec width → List (BitVec 8)
  | 0, _ => []
  | bytes + 1, address =>
    if memory address = 0 then [] else memory address :: stringFrom memory bytes (address + 1)

/-- The string at an address. -/
def stringAt (memory : Memory width) (address : BitVec width) : List (BitVec 8) :=
  stringFrom memory (2 ^ width) address

/-- The place of an element of an array. -/
def element (array : BitVec width) (bytes : Nat) (index : BitVec width) : BitVec width :=
  array + .ofNat width bytes * index

/-- The place of an element whose index does not wrap. -/
theorem element_eq (array : BitVec width) (bytes : Nat) (index : BitVec width) :
    element array bytes index = array + .ofNat width (bytes * index.toNat) := by
  rw [element, BitVec.ofNat_mul, BitVec.ofNat_toNat, BitVec.setWidth_eq]

/-- A memory that is zero but for some words. -/
def memoryOf (words : List (BitVec width × BitVec 32)) : Memory width :=
  words.foldl (fun memory word => storeAt memory word.1 word.2) fun _ => 0

variable {env} {memory after : Memory width} {bits : Nat} {address : BitVec width}

/-- A read returns the word there. -/
theorem load_ok {value : BitVec bits} : load env bits address memory = .ok value after ↔
    env.inside address (bits / 8) = true ∧ loadAt bits memory address = value ∧ memory = after := by
  simp only [load, bind_ok, get_ok, ite_ok, pure_ok, throw_ok]
  constructor
  · rintro ⟨_, _, ⟨rfl, rfl⟩, ⟨inside, same⟩ | ⟨_, ⟨⟩⟩⟩
    exact ⟨inside, same⟩
  · rintro ⟨inside, same⟩
    exact ⟨memory, memory, ⟨rfl, rfl⟩, .inl ⟨inside, same⟩⟩

/-- A write leaves the word there. -/
theorem store_ok {value : BitVec bits} {result : Unit} :
    store env address value memory = .ok result after ↔
      env.inside address (bits / 8) = true ∧ storeAt memory address value = after := by
  simp only [store, bind_ok, get_ok, ite_ok, set_ok, throw_ok]
  constructor
  · rintro ⟨_, _, ⟨rfl, rfl⟩, ⟨inside, same⟩ | ⟨_, ⟨⟩⟩⟩
    exact ⟨inside, same⟩
  · rintro ⟨inside, same⟩
    exact ⟨memory, memory, ⟨rfl, rfl⟩, .inl ⟨inside, same⟩⟩

end Access

/-- The environment in which every access is allowed. -/
def Environment.unbounded {width : Nat} (env : Environment width) : Environment width :=
  { env with inside := fun _ _ => true }

section Unbounded

variable {width : Nat} {env : Environment width} {memory : Memory width}
  {bits : Nat} {address : BitVec width} {α : Type}

/-- Without bounds a read returns. -/
@[simp] theorem load_unbounded :
    load env.unbounded bits address memory = .ok (loadAt bits memory address) memory :=
  load_ok.mpr ⟨rfl, rfl, rfl⟩

/-- Without bounds a write returns. -/
@[simp] theorem store_unbounded {value : BitVec bits} :
    store env.unbounded address value memory = .ok () (storeAt memory address value) :=
  store_ok.mpr ⟨rfl, rfl⟩

/-- Without bounds a function goes on with the word it reads. -/
@[simp] theorem load_unbounded_bind {next : BitVec bits → Kernel (Memory width) α} :
    (load env.unbounded bits address >>= next) memory =
      next (loadAt bits memory address) memory :=
  bind_of_ok load_unbounded

/-- Without bounds a function goes on with the word it wrote. -/
@[simp] theorem store_unbounded_bind {value : BitVec bits}
    {next : Unit → Kernel (Memory width) α} :
    (store env.unbounded address value >>= next) memory =
      next () (storeAt memory address value) :=
  bind_of_ok store_unbounded

end Unbounded

end Unarddeg.Elf
