import Unarddeg.Arch.Module.Prescribed

/-!
# Displacements of 32 bits

The types `R_X86_64_PC32` and `R_X86_64_PLT32` of the 64-bit target. `RelocateModule` computes their
displacement in 64 bits and stores the low half of it with a cast, which never fails. An entry leads
to its symbol if and only if the displacement fits (`narrowed_iff`); how far it is depends on where
the boot loader places the module.
-/

namespace Unarddeg.Elf.Amd64

open Library

/-- A word of 64 bits is the value of a signed word of 32 bits. -/
def FitsHalf (value : BitVec 64) : Prop := -2 ^ 31 ≤ value.toInt ∧ value.toInt < 2 ^ 31

instance (value : BitVec 64) : Decidable (FitsHalf value) := inferInstanceAs (Decidable (_ ∧ _))

/-- The types that prescribe a displacement: `R_X86_64_PC32` and `R_X86_64_PLT32`. -/
def Displaces (type : BitVec 32) : Prop := type = 2 ∨ type = 4

instance (type : BitVec 32) : Decidable (Displaces type) := inferInstanceAs (Decidable (_ ∨ _))

/-- Every entry for a displacement that `RelocateModule` accepts leads to its symbol: the word that
it stored, sign-extended, and the place of the word give `S + A`. If a displacement does not fit,
`RelocateModule` fails. -/
def Narrowed (env : Environment 64) (base : BitVec 64) (memory : Memory 64) : Prop :=
  let mod := moduleOf amd64 base memory
  let shdr := shdr amd64 base memory
  ∀ table r now, EntryReached env base memory table r now → Displaces (entryType table r now) →
    ∀ value, indexValue env mod shdr (entrySymIdx table r now) now = some value →
      (∀ after, table.body (relaEntry env.unbounded) (relEntry env.unbounded) mod shdr r now =
          .ok true after →
        (loadAt 32 after (patchPlace table r now)).signExtend 64 + patchPlace table r now =
          value + entryAddend table r now) ∧
      (¬ FitsHalf (value + entryAddend table r now - patchPlace table r now) →
        ∀ found after, relocateModule env.unbounded base memory ≠ .ok (true, found) after)

section Narrowed

variable {env : Environment 64} {mod : LoadedModule 64} {shdr : BitVec 64} {table : Table 64}
  {r : Nat} {now : Memory 64} {value : BitVec 64}

/-- The low half of a word, sign-extended, is the word when it fits. -/
theorem signExtend_half_iff (value : BitVec 64) :
    (value.setWidth 32).signExtend 64 = value ↔ FitsHalf value := by
  have lower := BitVec.le_toInt value
  have upper := BitVec.toInt_lt (x := value)
  have number : value.toInt = (value.toNat : Int).bmod (2 ^ 64) := BitVec.toInt_eq_toNat_bmod value
  rw [← BitVec.toInt_inj, BitVec.toInt_signExtend_of_le (by decide), BitVec.toInt_setWidth,
    FitsHalf]
  rw [number] at lower upper ⊢
  simp only [Int.bmod_def]
  omega

/-- The low half of a sign-extended word is the word. -/
theorem setWidth_signExtend_half (word : BitVec 32) : (word.signExtend 64).setWidth 32 = word := by
  refine BitVec.eq_of_getLsbD_eq fun place inside => ?_
  simp [BitVec.getElem_signExtend, inside, show place < 64 by omega]

/-- The loops go on with an entry whose symbol has a value. -/
theorem used_of_indexValue
    (valued : indexValue env mod shdr (entrySymIdx table r now) now = some value) :
    ∃ address, usedAddress env mod shdr table r now = some address := by
  unfold indexValue at valued
  unfold usedAddress
  by_cases looked : 0 < entrySymIdx table r now ∧ entrySymIdx table r now < mod.symcount
  · have first : ¬ entrySymIdx table r now = 0 := (BitVec.pos_iff_ne_zero _).mp looked.1
    rw [if_neg first, if_pos looked.2] at valued
    rw [if_pos looked, entrySymbol]
    generalize symbolOf amd64 mod shdr (entrySymIdx table r now) now = symbol at valued
    unfold symbolValue at valued
    unfold Symbol.address
    by_cases undef : symbol.shndx = shnUndef
    · rw [if_pos undef] at valued ⊢
      by_cases missing : symbol.name = [] ∨ env.findKernelSymbol symbol.name = 0
      · rw [if_pos missing] at valued
        cases valued
      · obtain ⟨named, known⟩ := not_or.mp missing
        rw [if_neg named, if_neg known]
        exact ⟨_, rfl⟩
    · rw [if_neg undef]
      split_ifs
      all_goals exact ⟨_, rfl⟩
  · rw [if_neg looked]
    exact ⟨0, rfl⟩

/-- An entry for a displacement is accepted, and the low half of the sum is stored. -/
theorem body_displaces (type : Displaces (entryType table r now)) {address : BitVec 64}
    (used : usedAddress env mod shdr table r now = some address) :
    table.body (relaEntry env.unbounded) (relEntry env.unbounded) mod shdr r now =
      .ok true (storeAt now (patchPlace table r now)
        ((address + usedAddend table r now - patchPlace table r now).setWidth 32)) := by
  rw [body_unbounded, used]
  rcases type with two | four
  · rw [two]
    rfl
  · rw [four]
    rfl

/-- An entry for a displacement leads to its symbol if and only if the displacement fits and the
loop does not miss the symbol. -/
theorem displaced_iff (type : Displaces (entryType table r now))
    (valued : indexValue env mod shdr (entrySymIdx table r now) now = some value) :
    (∀ after, table.body (relaEntry env.unbounded) (relEntry env.unbounded) mod shdr r now =
        .ok true after →
      (loadAt 32 after (patchPlace table r now)).signExtend 64 + patchPlace table r now =
        value + entryAddend table r now) ↔
      FitsHalf (value + entryAddend table r now - patchPlace table r now) ∧
        (Missed mod shdr table r now →
          (entrySymbol mod shdr table r now).value.setWidth 32 = 0) := by
  obtain ⟨address, used⟩ := used_of_indexValue valued
  rw [← half_words used valued type, ← signExtend_half_iff, body_displaces type used]
  constructor
  · intro leads
    have stored := leads _ rfl
    rw [loadAt_storeAt (by decide) rfl] at stored
    have wide := BitVec.eq_sub_iff_add_eq.mpr stored
    have low := congrArg (BitVec.setWidth 32) wide
    rw [setWidth_signExtend_half] at low
    exact ⟨by rw [← low, wide], low⟩
  · rintro ⟨fits, low⟩ after returned
    cases returned
    rw [loadAt_storeAt (by decide) rfl, low, fits, BitVec.sub_add_cancel]

end Narrowed

/-- **Displacements.** In a module, every entry that `RelocateModule` accepts for a displacement
leads to its symbol, and it fails for a displacement that does not fit, if and only if all of them
fit and none is for an absolute symbol that the loop over entries without addends misses. -/
theorem narrowed_iff (env : Environment 64) (base : BitVec 64) (memory : Memory 64) :
    Narrowed env base memory ↔
      ∀ table r now, EntryReached env base memory table r now →
        Displaces (entryType table r now) → ∀ value,
          indexValue env (moduleOf amd64 base memory) (shdr amd64 base memory)
            (entrySymIdx table r now) now = some value →
          FitsHalf (value + entryAddend table r now - patchPlace table r now) ∧
            (Missed (moduleOf amd64 base memory) (shdr amd64 base memory) table r now →
              (entrySymbol (moduleOf amd64 base memory) (shdr amd64 base memory) table r
                now).value.setWidth 32 = 0) := by
  constructor
  · intro narrowed table r now reached type value valued
    exact (displaced_iff type valued).mp (narrowed table r now reached type value valued).1
  · intro fits table r now reached type value valued
    have fit := fits table r now reached type value valued
    exact ⟨(displaced_iff type valued).mpr fit, fun wide => absurd fit.1 wide⟩

/-! ## A module that is placed too far away -/

/-- A module with one entry of the type 2, placed at 3 GiB. -/
def farImage : Memory 64 := fun address => sampleImage 2 (address - 0xBFFFF000)

/-- A kernel that begins at 2 MiB, with the symbol `k`. -/
def lowKernel : Environment 64 :=
  ⟨fun _ _ => true, fun name => if name = [0x6B] then 0x200000 else 0, fun _ memory => memory⟩

/-- The table of the module. -/
def farTable : Table 64 :=
  (tableOf amd64 0xC0000000 (shdr amd64 0xC0000000 farImage) 4 farImage).getD ⟨false, 0, 0, 0⟩

/-- Its entry is reached. -/
theorem far_reached : EntryReached lowKernel 0xC0000000 farImage farTable 0 farImage := by
  have here : (tableOf amd64 0xC0000000 (shdr amd64 0xC0000000 farImage) 4 farImage).isSome =
      true := by decide +kernel
  exact first_reached (by decide +kernel) (by decide +kernel)
    ((Option.some_get here).symm.trans (congrArg some (Option.get_eq_getD _))) (by decide +kernel)

/-- A module at 3 GiB that calls a kernel at 2 MiB is accepted and calls something else. -/
theorem far_module_narrowed : ¬ ∀ (env : Environment 64) (base : BitVec 64) (memory : Memory 64),
    Narrowed env base memory := by
  intro claim
  have value : indexValue lowKernel (moduleOf amd64 0xC0000000 farImage)
      (shdr amd64 0xC0000000 farImage) (entrySymIdx farTable 0 farImage) farImage =
        some 0x200000 := by decide +kernel
  have type : Displaces (entryType farTable 0 farImage) := by decide +kernel
  have leads := (claim lowKernel 0xC0000000 farImage farTable 0 farImage far_reached type _ value).1
  have fits := ((displaced_iff type value).mp leads).1
  exact absurd fits (by decide +kernel)

end Unarddeg.Elf.Amd64
