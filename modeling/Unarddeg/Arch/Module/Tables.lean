import Unarddeg.Arch.Module.Symbol

/-!
# The tables of a module

What the memory says about the sections of a module, as functions of the memory. Without bounds on
the accesses the first loop of `RelocateModule` only reads, so it finds the module that `moduleOf`
describes.
-/

namespace Unarddeg.Elf

open Library

section Tables

variable {width : Nat} (layout : Layout width) (base : BitVec width) (memory : Memory width)

/-- The section headers. -/
def shdr : BitVec width := base + loadAt width memory (base + layout.shoff)

/-- A section header. -/
def header (i : Nat) : BitVec width :=
  element (shdr layout base memory) layout.sectionBytes (.ofNat width i)

/-- The number of sections. -/
def sections : Nat := (loadAt 16 memory (base + layout.shnum)).toNat

/-- `sh_type` of a section. -/
def sectionType (i : Nat) : BitVec 32 := loadAt 32 memory (header layout base memory i + 4)

/-- A section has `SHF_ALLOC`. -/
def sectionAlloc (i : Nat) : Prop :=
  loadAt width memory (header layout base memory i + 8) &&& shfAlloc width ≠ 0

instance (i : Nat) : Decidable (sectionAlloc layout base memory i) :=
  inferInstanceAs (Decidable (_ ≠ _))

/-- The bytes of a section. -/
def sectionSize (i : Nat) : BitVec width :=
  loadAt width memory (header layout base memory i + layout.shSize)

/-- The place of a section. -/
def sectionStart (i : Nat) : BitVec width :=
  base + loadAt width memory (header layout base memory i + layout.shOffset)

/-- The header that `sh_info` of a section selects. -/
def targetHeader (i : Nat) : BitVec width :=
  element (shdr layout base memory) layout.sectionBytes
    ((loadAt 32 memory (header layout base memory i + layout.shInfo)).signExtend width)

/-- The entries of a section are for a section with `SHF_ALLOC`. -/
def targetAlloc (i : Nat) : Prop :=
  loadAt width memory (targetHeader layout base memory i + 8) &&& shfAlloc width ≠ 0

instance (i : Nat) : Decidable (targetAlloc layout base memory i) :=
  inferInstanceAs (Decidable (_ ≠ _))

/-- The section with the symbols, the first of its type. -/
def symtabSection : Option Nat :=
  (List.range (sections layout base memory)).find? fun i =>
    sectionType layout base memory i = shtSymtab

/-- The header that `sh_link` of a section selects. -/
def linkHeader (i : Nat) : BitVec width :=
  element (shdr layout base memory) layout.sectionBytes
    ((loadAt 32 memory (header layout base memory i + layout.shLink)).signExtend width)

/-- The module with its symbols and strings. -/
def moduleOf : LoadedModule width where
  base := base
  symtab := (symtabSection layout base memory).elim 0 (sectionStart layout base memory)
  symcount := (symtabSection layout base memory).elim 0 fun i =>
    (sectionSize layout base memory i / .ofNat width layout.symbolBytes).setWidth 32
  strtab := (symtabSection layout base memory).elim 0 fun i =>
    base + loadAt width memory (linkHeader layout base memory i + layout.shOffset)

variable {layout base memory} {env : Environment width}

/-- A module without a section for its symbols. -/
theorem moduleOf_none
    (nowhere : ∀ i < sections layout base memory, sectionType layout base memory i ≠ shtSymtab) :
    moduleOf layout base memory = ⟨base, 0, 0, 0⟩ := by
  have missing : symtabSection layout base memory = none :=
    List.find?_eq_none.mpr fun i member => by simpa using nowhere i (List.mem_range.mp member)
  rw [moduleOf, missing]
  rfl

/-- The first loop finds the symbols and the strings. -/
theorem findSymtab_eq {count i : Nat} (first : i ≤ sections layout base memory)
    (enough : sections layout base memory ≤ i + count)
    (before : ∀ j < i, sectionType layout base memory j ≠ shtSymtab) :
    findSymtab layout env.unbounded ⟨base, 0, 0, 0⟩ (shdr layout base memory) count i memory =
      .ok (moduleOf layout base memory) memory := by
  induction count generalizing i with
  | zero =>
    rw [findSymtab, moduleOf_none fun i small => before i (by omega)]
    rfl
  | succ count ih =>
    have test : moreSections layout env.unbounded base i memory =
        .ok (decide (i < sections layout base memory)) memory := moreSections_unbounded
    rw [findSymtab, bind_of_ok test]
    by_cases more : i < sections layout base memory
    · rw [decide_eq_true more, if_pos rfl, load_unbounded_bind, ← header, ← sectionType]
      by_cases found : sectionType layout base memory i = shtSymtab
      · have here : symtabSection layout base memory = some i := by
          rw [symtabSection, List.find?_range_eq_some]
          exact ⟨decide_eq_true found, List.mem_range.mpr more, fun j small => by
            simpa using before j small⟩
        rw [if_pos found, moduleOf, here]
        simp only [load_unbounded_bind, Option.elim_some]
        rfl
      · rw [if_neg found]
        have later : ∀ j < i + 1, sectionType layout base memory j ≠ shtSymtab := by
          intro j small
          rcases Nat.lt_succ_iff_lt_or_eq.mp small with old | rfl
          · exact before j old
          · exact found
        exact ih more (by omega) later
    · rw [decide_eq_false more, if_neg (by simp), moduleOf_none fun i small => before i (by omega)]
      rfl

variable {relaEntry relEntry : EntryLoop width}

/-- `RelocateModule` goes through the sections of the module that it found. -/
theorem relocateModule_unbounded :
    relocateModule layout env.unbounded relaEntry relEntry base memory =
      (loop (moreSections layout env.unbounded base)
        (relocateSection layout env.unbounded relaEntry relEntry (moduleOf layout base memory)
          (shdr layout base memory)) 65536 0 >>= fun done =>
            pure (done, moduleOf layout base memory)) memory := by
  have few : sections layout base memory ≤ 65536 := Nat.le_of_lt (loadAt 16 memory _).isLt
  have symtab : findSymtab layout env.unbounded ⟨base, 0, 0, 0⟩ (shdr layout base memory) 65536 0
      memory = .ok (moduleOf layout base memory) memory :=
    findSymtab_eq (Nat.zero_le _) (by omega) (by simp)
  rw [relocateModule, load_unbounded_bind, ← shdr, bind_of_ok symtab]

end Tables

end Unarddeg.Elf
