import Unarddeg.Arch.Module.Symbol

/-!
# The two formats of relocations

An entry of `struct elf_rela` and one of `struct elf_rel` for the same symbol on the 32-bit target.
The loop over `struct elf_rel` has no case for `SHN_ABS` and no guard against index 0, and that is
all the difference there is for the types which both know (`formats_agree_iff`).
-/

namespace Unarddeg.Elf.Ia32

open Library

/-- The types that both loops know. -/
def Common (type : BitVec 32) : Prop := type = 1 ∨ type = 2 ∨ type = 4 ∨ type = 6 ∨ type = 7

instance (type : BitVec 32) : Decidable (Common type) := inferInstanceAs (Decidable (_ ∨ _))

/-- The word that a relocation of such a type leaves. -/
def relocated (type place address addend : BitVec 32) : BitVec 32 :=
  if type = 1 then address + addend
  else if type = 2 ∨ type = 4 then address + addend - place
  else address

section Switches

variable {env : Environment 32} {entry type place address other addend : BitVec 32}
  {memory : Memory 32}

/-- Different addresses leave different words. -/
theorem relocated_injective :
    relocated type place address addend = relocated type place other addend ↔ address = other := by
  refine ⟨fun same => ?_, fun same => same ▸ rfl⟩
  unfold relocated at same
  split at same
  · exact (BitVec.add_left_inj addend).mp same
  · split at same
    · rw [BitVec.sub_eq_add_neg, BitVec.sub_eq_add_neg] at same
      exact (BitVec.add_left_inj addend).mp ((BitVec.add_left_inj _).mp same)
    · exact same

/-- The `switch` over an entry with an addend. -/
theorem relaSwitch_common (common : Common type) :
    relaSwitch env.unbounded entry type place address memory =
      .ok () (storeAt memory place
        (relocated type place address (loadAt 32 memory (entry + ia32.rAddend)))) := by
  rcases common with rfl | rfl | rfl | rfl | rfl <;> simp [relaSwitch, relocated]

/-- The `switch` over an entry without one. -/
theorem relSwitch_common (common : Common type) :
    relSwitch env.unbounded type place address addend memory =
      .ok () (storeAt memory place (relocated type place address addend)) := by
  rcases common with rfl | rfl | rfl | rfl | rfl <;> simp [relSwitch, relocated]

end Switches

/-- Both entries leave the same word, or both end the relocation. -/
def Agree (place : BitVec 32) (rela rel : EStateM.Result Stop (Memory 32) Bool) : Prop :=
  ∃ done after otherAfter, rela = .ok done after ∧ rel = .ok done otherAfter ∧
    (done = true → loadAt 32 after place = loadAt 32 otherAfter place)

section Entries

variable {env : Environment 32} {mod : LoadedModule 32}
  {shdr targetBase otherBase table otherTable place info : BitVec 32} {memory other : Memory 32}
  {r s : Nat}

/-- An entry with an addend, of a type that both loops know. -/
theorem relaEntry_common
    (infoIs : loadAt 32 memory (element table ia32.relaBytes (.ofNat 32 r) + ia32.rInfo) = info)
    (placeIs : targetBase + loadAt 32 memory (element table ia32.relaBytes (.ofNat 32 r)) = place)
    (common : Common (info &&& 0xFF)) :
    relaEntry env.unbounded mod shdr targetBase table r memory =
      match (if 0 < info >>> 8 ∧ info >>> 8 < mod.symcount then
          (symbolOf ia32 mod shdr (info >>> 8) memory).address env.findKernelSymbol true mod.base
        else some 0) with
      | none => .ok false memory
      | some address => .ok true (storeAt memory place (relocated (info &&& 0xFF) place address
          (loadAt 32 memory (element table ia32.relaBytes (.ofNat 32 r) + ia32.rAddend)))) := by
  have notRelative : ¬ (info &&& 0xFF = 8 ∧ info >>> 8 = 0) := by
    rintro ⟨relative, _⟩
    rw [relative] at common
    exact absurd common (by decide)
  simp only [relaEntry, load_unbounded_bind, infoIs, placeIs, if_neg notRelative]
  rw [bind_of_ok guardedAddress_unbounded]
  cases (if 0 < info >>> 8 ∧ info >>> 8 < mod.symcount then
      (symbolOf ia32 mod shdr (info >>> 8) memory).address env.findKernelSymbol true mod.base
    else some 0) with
  | none => rfl
  | some address => exact bind_of_ok (relaSwitch_common common)

/-- An entry without an addend, of a type that both loops know. -/
theorem relEntry_common
    (infoIs : loadAt 32 memory (element table ia32.relBytes (.ofNat 32 r) + ia32.rInfo) = info)
    (placeIs : targetBase + loadAt 32 memory (element table ia32.relBytes (.ofNat 32 r)) = place)
    (common : Common (info &&& 0xFF)) :
    relEntry env.unbounded mod shdr targetBase table r memory =
      match (symbolOf ia32 mod shdr (info >>> 8) memory).address env.findKernelSymbol false
          mod.base with
      | none => .ok false memory
      | some address => .ok true (storeAt memory place
          (relocated (info &&& 0xFF) place address (loadAt 32 memory place))) := by
  simp only [relEntry, load_unbounded_bind, infoIs, placeIs]
  rw [bind_of_ok symbolAddress_unbounded]
  cases (symbolOf ia32 mod shdr (info >>> 8) memory).address env.findKernelSymbol false
      mod.base with
  | none => rfl
  | some address => exact bind_of_ok (relSwitch_common common)

/-- What an entry makes of the memory, with the address of its symbol. -/
def entryResult (memory : Memory 32) (type place addend : BitVec 32) :
    Option (BitVec 32) → EStateM.Result Stop (Memory 32) Bool
  | none => .ok false memory
  | some address => .ok true (storeAt memory place (relocated type place address addend))

/-- Entries with one addend agree exactly when their symbols have one address. -/
theorem agree_iff {type addend : BitVec 32} {left right : Option (BitVec 32)} :
    Agree place (entryResult memory type place addend left)
      (entryResult other type place addend right) ↔ left = right := by
  cases left with
  | none =>
    cases right with
    | none => exact ⟨fun _ => rfl, fun _ => ⟨false, memory, other, rfl, rfl, by simp⟩⟩
    | some address =>
      refine ⟨?_, fun same => by cases same⟩
      rintro ⟨_, _, _, leftIs, rightIs, _⟩
      cases leftIs
      cases rightIs
  | some address =>
    cases right with
    | none =>
      refine ⟨?_, fun same => by cases same⟩
      rintro ⟨_, _, _, leftIs, rightIs, _⟩
      cases leftIs
      cases rightIs
    | some second =>
      constructor
      · rintro ⟨_, _, _, leftIs, rightIs, same⟩
        cases leftIs
        cases rightIs
        have words := same rfl
        rw [loadAt_storeAt (by decide) rfl, loadAt_storeAt (by decide) rfl] at words
        exact congrArg some (relocated_injective.mp words)
      · intro same
        obtain rfl := Option.some.inj same
        refine ⟨true, _, _, rfl, rfl, fun _ => ?_⟩
        rw [loadAt_storeAt (by decide) rfl, loadAt_storeAt (by decide) rfl]

/-- **Formats.** For the types that both loops know, and an index in the table, the two formats
agree exactly when the symbol is not an absolute one with a value and, if its index is 0, its
address is 0. -/
theorem formats_agree_iff
    (relaInfo : loadAt 32 memory (element table ia32.relaBytes (.ofNat 32 r) + ia32.rInfo) = info)
    (relInfo : loadAt 32 other (element otherTable ia32.relBytes (.ofNat 32 s) + ia32.rInfo) = info)
    (relaPlace : targetBase + loadAt 32 memory (element table ia32.relaBytes (.ofNat 32 r)) = place)
    (relPlace :
      otherBase + loadAt 32 other (element otherTable ia32.relBytes (.ofNat 32 s)) = place)
    (addend : loadAt 32 memory (element table ia32.relaBytes (.ofNat 32 r) + ia32.rAddend) =
      loadAt 32 other place)
    (common : Common (info &&& 0xFF)) (inRange : info >>> 8 < mod.symcount)
    {symbol : Symbol 32} (symbolIs : symbolOf ia32 mod shdr (info >>> 8) memory = symbol)
    (sameSymbol : symbolOf ia32 mod shdr (info >>> 8) other = symbol) :
    Agree place (relaEntry env.unbounded mod shdr targetBase table r memory)
        (relEntry env.unbounded mod shdr otherBase otherTable s other) ↔
      (info >>> 8 ≠ 0 → symbol.shndx = shnAbs → symbol.shnum ≤ shnAbs → symbol.value = 0) ∧
        (info >>> 8 = 0 →
          (symbol.shndx = shnUndef → symbol.name = []) ∧
            (symbol.shndx ≠ shnUndef → symbol.shndx < symbol.shnum →
              symbol.sectionAddress mod.base = 0)) := by
  have left : relaEntry env.unbounded mod shdr targetBase table r memory = entryResult memory
      (info &&& 0xFF) place (loadAt 32 other place)
      (if 0 < info >>> 8 ∧ info >>> 8 < mod.symcount then
        symbol.address env.findKernelSymbol true mod.base else some 0) := by
    rw [relaEntry_common relaInfo relaPlace common, symbolIs, addend]
    rfl
  have right : relEntry env.unbounded mod shdr otherBase otherTable s other = entryResult other
      (info &&& 0xFF) place (loadAt 32 other place)
      (symbol.address env.findKernelSymbol false mod.base) := by
    rw [relEntry_common relInfo relPlace common, sameSymbol]
    rfl
  rw [left, right, agree_iff]
  by_cases first : info >>> 8 = 0
  · have unguarded : ¬ (0 < info >>> 8 ∧ info >>> 8 < mod.symcount) := by
      rw [first]
      exact fun guarded => absurd guarded.1 (by decide)
    rw [if_neg unguarded]
    simp only [first, ne_eq, not_true_eq_false, false_implies, true_and, true_implies]
    rw [eq_comm, symbol.address_eq_zero]
  · have positive : 0 < info >>> 8 := (BitVec.pos_iff_ne_zero _).mpr first
    rw [if_pos ⟨positive, inRange⟩, symbol.address_absolute]
    simp only [first, ne_eq, not_false_eq_true, true_implies, false_implies, and_true]

end Entries

/-- The environment of the samples: there are no kernel symbols. -/
def sampleEnv : Environment 32 := ⟨fun _ _ => true, fun _ => 0, fun _ memory => memory⟩

/-- A module with two symbols; the second one has the value 5. -/
def sampleMod : LoadedModule 32 := ⟨0, 0x100, 0x200, 2⟩

/-- A memory with an entry of each format for the second symbol, whose section index is given. -/
def sampleMemory (shndx : BitVec 32) : Memory 32 := memoryOf
  [(0x114, 5), (0x11C, shndx <<< 16), (0x400, 0x10), (0x404, 0x101), (0x408, 7), (0x500, 0x10),
    (0x504, 0x101), (0x610, 7)]

/-- The two formats agree on a symbol without a name. -/
theorem formats_agree_iff_sample : Agree 0x610
    (relaEntry sampleEnv.unbounded sampleMod 0x300 0x600 0x400 0 (sampleMemory 0))
    (relEntry sampleEnv.unbounded sampleMod 0x300 0x600 0x500 0 (sampleMemory 0)) :=
  (formats_agree_iff (show _ = 0x101 by decide +kernel) (by decide +kernel) (by decide +kernel)
    (by decide +kernel) (by decide +kernel) (by decide) (by decide) rfl rfl).mpr
      ⟨by decide +kernel, by decide +kernel⟩

/-- They do not agree on an absolute symbol. -/
theorem absolute_symbol_missed : ¬ ∀ (env : Environment 32) (mod : LoadedModule 32)
    (shdr targetBase otherBase table otherTable place info : BitVec 32) (memory other : Memory 32)
    (r s : Nat),
    loadAt 32 memory (element table ia32.relaBytes (.ofNat 32 r) + ia32.rInfo) = info →
    loadAt 32 other (element otherTable ia32.relBytes (.ofNat 32 s) + ia32.rInfo) = info →
    targetBase + loadAt 32 memory (element table ia32.relaBytes (.ofNat 32 r)) = place →
    otherBase + loadAt 32 other (element otherTable ia32.relBytes (.ofNat 32 s)) = place →
    loadAt 32 memory (element table ia32.relaBytes (.ofNat 32 r) + ia32.rAddend) =
      loadAt 32 other place →
    Common (info &&& 0xFF) → info >>> 8 < mod.symcount →
    symbolOf ia32 mod shdr (info >>> 8) memory = symbolOf ia32 mod shdr (info >>> 8) other →
    Agree place (relaEntry env.unbounded mod shdr targetBase table r memory)
      (relEntry env.unbounded mod shdr otherBase otherTable s other) := by
  intro claim
  have agree := claim sampleEnv sampleMod 0x300 0x600 0x600 0x400 0x500 0x610 0x101
    (sampleMemory 0xFFF1) (sampleMemory 0xFFF1) 0 0 (by decide +kernel) (by decide +kernel)
    (by decide +kernel) (by decide +kernel) (by decide +kernel) (by decide) (by decide) rfl
  have words : (match relaEntry sampleEnv.unbounded sampleMod 0x300 0x600 0x400 0
        (sampleMemory 0xFFF1), relEntry sampleEnv.unbounded sampleMod 0x300 0x600 0x500 0
        (sampleMemory 0xFFF1) with
      | .ok true after, .ok true otherAfter =>
        decide (loadAt 32 after 0x610 ≠ loadAt 32 otherAfter 0x610)
      | _, _ => false) = true := by
    decide +kernel
  obtain ⟨done, after, otherAfter, left, right, same⟩ := agree
  rw [left, right] at words
  cases done with
  | false => cases words
  | true => exact absurd (same rfl) (of_decide_eq_true words)

end Unarddeg.Elf.Ia32
