import Unarddeg.Arch.Module.Bounded

/-!
# The memory of the sections

`LoadModule` of the 32-bit target uses every section in place, at its offset in the file, a section
without bytes in the file (`SHT_NOBITS`) too: it neither finds memory for one nor clears it.
`RelocateModule` is the only function before `Init` that writes, and it only writes the words of the
entries that it reaches. So a section without bytes in the file is zero for `Init` when the file is
zero there (`sections_proper_iff`).
-/

namespace Unarddeg.Elf.Ia32

open Library

section Sections

variable (base : BitVec 32) (memory : Memory 32)

/-- The sections with `SHF_ALLOC` lie in the image, apart from the other sections and from the
headers. The symbols, the strings and the entries are sections themselves. -/
structure Laid (size : Nat) : Prop where
  /-- They lie in the image. -/
  inside : ∀ i < sections ia32 base memory, sectionAlloc ia32 base memory i →
    InImage base size (sectionStart ia32 base memory i) (sectionSize ia32 base memory i).toNat
  /-- They lie apart from every other section. -/
  sections : ∀ i < sections ia32 base memory, sectionAlloc ia32 base memory i →
    ∀ j < sections ia32 base memory, j ≠ i →
      Apart (sectionStart ia32 base memory i) (sectionSize ia32 base memory i).toNat
        (sectionStart ia32 base memory j) (sectionSize ia32 base memory j).toNat
  /-- They lie apart from the header of the file. -/
  file : ∀ i < Elf.sections ia32 base memory, sectionAlloc ia32 base memory i →
    Apart (sectionStart ia32 base memory i) (sectionSize ia32 base memory i).toNat base
      ia32.headerBytes
  /-- They lie apart from the headers of the sections. -/
  headers : ∀ i < Elf.sections ia32 base memory, sectionAlloc ia32 base memory i →
    Apart (sectionStart ia32 base memory i) (sectionSize ia32 base memory i).toNat
      (shdr ia32 base memory) (Elf.sections ia32 base memory * ia32.sectionBytes)

/-- A byte is one of a section with `SHF_ALLOC` that has no bytes in the file. -/
def NoBits (place : BitVec 32) : Prop :=
  ∃ i < sections ia32 base memory, sectionAlloc ia32 base memory i ∧
    sectionType ia32 base memory i = shtNobits ∧
    Within (sectionStart ia32 base memory i) (sectionSize ia32 base memory i).toNat place

/-- The sections without bytes in the file are zero in a memory. -/
def Cleared (now : Memory 32) : Prop :=
  ∀ place, NoBits base memory place → now place = 0

/-- `RelocateModule` reaches an entry in a memory. -/
def EntryReached (env : Environment 32) : Table 32 → Nat → Memory 32 → Prop :=
  Visited ia32 env (relaEntry env.unbounded) (relEntry env.unbounded) (moduleOf ia32 base memory)
    (shdr ia32 base memory) memory

/-- No entry that `RelocateModule` reaches is for a byte of a section without bytes in the file. -/
def Spared (env : Environment 32) : Prop :=
  ∀ table r now, EntryReached base memory env table r now →
    ∀ place, NoBits base memory place → ¬ Within (wordOf now table r) 4 place

end Sections

section Words

variable {env : Environment 32} {mod : LoadedModule 32} {shdr base place : BitVec 32}
  {memory now next : Memory 32} {table : Table 32} {r : Nat}

/-- A patch of a word changes no byte outside of it. -/
theorem store_keeps {address value : BitVec 32} {result : Unit}
    (outside : ¬ Within address 4 place)
    (returned : store env address value now = .ok result next) : next place = now place := by
  obtain ⟨_, rfl⟩ := store_ok.mp returned
  exact storeAt_outside outside

/-- A patch with a value that was read changes no byte outside of its word. -/
theorem load_store_keeps {address other : BitVec 32} {value : BitVec 32 → BitVec 32}
    {result : Unit} (outside : ¬ Within address 4 place)
    (returned : (load env 32 other >>= fun word => store env address (value word)) now =
      .ok result next) : next place = now place := by
  obtain ⟨_, middle, read, patch⟩ := bind_ok.mp returned
  obtain ⟨_, _, rfl⟩ := load_ok.mp read
  exact store_keeps outside patch

/-- The `switch` of the loop over entries with addends only writes the word. -/
theorem relaSwitch_keeps {entry type patchAddr symAddr : BitVec 32} {result : Unit}
    (outside : ¬ Within patchAddr 4 place)
    (returned : relaSwitch env entry type patchAddr symAddr now = .ok result next) :
    next place = now place := by
  unfold relaSwitch at returned
  split at returned
  · exact load_store_keeps outside returned
  · exact load_store_keeps outside returned
  · exact load_store_keeps outside returned
  all_goals first
    | exact store_keeps outside returned
    | rw [(pure_ok.mp returned).2]

/-- The `switch` of the loop over entries without addends only writes the word. -/
theorem relSwitch_keeps {type patchAddr symAddr addend : BitVec 32} {result : Unit}
    (outside : ¬ Within patchAddr 4 place)
    (returned : relSwitch env type patchAddr symAddr addend now = .ok result next) :
    next place = now place := by
  unfold relSwitch at returned
  split at returned
  all_goals first
    | exact store_keeps outside returned
    | rw [(pure_ok.mp returned).2]

/-- The body of a loop only writes the word of its entry. -/
theorem body_keeps {done : Bool} (outside : ¬ Within (wordOf now table r) 4 place)
    (returned : table.body (relaEntry env.unbounded) (relEntry env.unbounded) mod shdr r now =
      .ok done next) : next place = now place := by
  unfold Table.body at returned
  by_cases rela : table.rela = true
  · have entry : element table.start ia32.relaBytes (.ofNat 32 r) = placeOf table r := by
      rw [placeOf, Table.entryBytes, if_pos rela]
    rw [if_pos rela, relaEntry, entry] at returned
    simp only [load_unbounded_bind] at returned
    rcases ite_ok.mp returned with ⟨_, relative⟩ | ⟨_, looked⟩
    · rw [load_unbounded_bind, store_unbounded_bind] at relative
      rw [← (pure_ok.mp relative).2]
      exact storeAt_outside outside
    · obtain ⟨found, middle, finds, rest⟩ := bind_ok.mp looked
      obtain ⟨_, rfl⟩ := EStateM.Result.ok.inj (guardedAddress_unbounded.symm.trans finds)
      cases found with
      | none => rw [(pure_ok.mp rest).2]
      | some address =>
        obtain ⟨_, last, switched, done⟩ := bind_ok.mp rest
        rw [← (pure_ok.mp done).2]
        exact relaSwitch_keeps outside switched
  · have entry : element table.start ia32.relBytes (.ofNat 32 r) = placeOf table r := by
      rw [placeOf, Table.entryBytes, if_neg rela]
    rw [if_neg rela, relEntry, entry] at returned
    simp only [load_unbounded_bind] at returned
    obtain ⟨found, middle, finds, rest⟩ := bind_ok.mp returned
    obtain ⟨_, rfl⟩ := EStateM.Result.ok.inj (symbolAddress_unbounded.symm.trans finds)
    cases found with
    | none => rw [(pure_ok.mp rest).2]
    | some address =>
      obtain ⟨_, last, switched, done⟩ := bind_ok.mp rest
      rw [← (pure_ok.mp done).2]
      exact relSwitch_keeps outside switched

variable {init : BitVec 32} {atInit after : Memory 32} {constructors : List (BitVec 32)}

/-- A byte that no entry patches is for `Init` what it is in the file. -/
theorem loaded_keeps
    (loaded : loadModule env.unbounded base memory = .ok (.loaded init atInit constructors) after)
    (outside : ∀ table r now, EntryReached base memory env table r now →
      ¬ Within (wordOf now table r) 4 place) : atInit place = memory place := by
  obtain ⟨mod, middle, relocated, found⟩ := loadModule_loaded loaded
  obtain rfl := findSymbol_ok found
  rw [relocateModule, relocateModule_unbounded] at relocated
  obtain ⟨done, last, loops, rest⟩ := bind_ok.mp relocated
  obtain ⟨_, rfl⟩ := pure_ok.mp rest
  exact @relocated_keeps _ _ _ _ _ _ _ _ _ _ (fun now => now place)
    (fun table r now reached done next body => body_keeps (outside table r now reached) body) _ _
    loops

/-- **Sections.** Unless a relocation is for a byte of a section without bytes in the file, the
sections are laid out apart from all else and those without bytes are zero for `Init` exactly when
the file itself lays them out so and is zero there. -/
theorem sections_proper_iff {size : Nat} (spared : Spared base memory env)
    (loaded : loadModule env.unbounded base memory = .ok (.loaded init atInit constructors) after) :
    Laid base memory size ∧ Cleared base memory atInit ↔
      Laid base memory size ∧ Cleared base memory memory := by
  have same : ∀ place, NoBits base memory place → atInit place = memory place :=
    fun place bare => loaded_keeps loaded fun table r now reached =>
      spared table r now reached place bare
  refine and_congr_right fun _ => ?_
  exact forall₂_congr fun place bare => by rw [same place bare]

end Words

/-- A module with eight bytes of code, the symbol `Init`, its name, and eight bytes that are not in
the file, at an offset. -/
def bareImage (offset : BitVec 32) : Memory 32 := memoryOf
  [(0x1000, 0x464C457F), (0x1010, 1), (0x1020, 0x34), (0x1030, 5),
    -- The headers of the code, the symbols, the strings and the bytes.
    (0x1060, 1), (0x1064, 2), (0x106C, 0x100), (0x1070, 8),
    (0x1088, 2), (0x1094, 0x120), (0x1098, 0x20), (0x109C, 3),
    (0x10B0, 3), (0x10BC, 0x150), (0x10C0, 8),
    (0x10D8, 8), (0x10DC, 2), (0x10E4, offset), (0x10E8, 8),
    -- The symbol and its name.
    (0x1130, 1), (0x113C, 0x10000), (0x1150, 0x696E4900), (0x1154, 0x74)]

/-- An environment whose code changes nothing. -/
def idleEnv : Environment 32 where
  inside _ _ := true
  findKernelSymbol _ := 0
  call _ memory := memory

/-- The module is loaded wherever its bytes are, and `Init` is called. -/
theorem bareImage_loaded {offset : BitVec 32} (known : offset = 0x150 ∨ offset = 0x160) :
    ∃ init atInit constructors after, init ≠ 0 ∧
      loadModule idleEnv.unbounded 0x1000 (bareImage offset) =
        .ok (.loaded init atInit constructors) after := by
  have calls : (match loadModule idleEnv.unbounded 0x1000 (bareImage offset) with
      | .ok (.loaded init _ _) _ => decide (init ≠ 0)
      | _ => false) = true := by
    rcases known with rfl | rfl
    · decide +kernel
    · decide +kernel
  split at calls
  · rename_i init atInit constructors after ended
    exact ⟨init, atInit, constructors, after, of_decide_eq_true calls, ended⟩
  · cases calls

/-- Behind all else in the file, the bytes are laid out apart from it. -/
theorem bareImage_laid : Laid 0x1000 (bareImage 0x160) 0x168 where
  inside := by decide +kernel
  sections i inside alloc j others differ := Separate.apart
    ((by decide +kernel : ∀ i < sections ia32 0x1000 (bareImage 0x160),
      sectionAlloc ia32 0x1000 (bareImage 0x160) i →
        ∀ j < sections ia32 0x1000 (bareImage 0x160), j ≠ i →
          Separate (sectionStart ia32 0x1000 (bareImage 0x160) i)
            (sectionSize ia32 0x1000 (bareImage 0x160) i).toNat
            (sectionStart ia32 0x1000 (bareImage 0x160) j)
            (sectionSize ia32 0x1000 (bareImage 0x160) j).toNat) i inside alloc j others differ)
  file i inside alloc := Separate.apart
    ((by decide +kernel : ∀ i < sections ia32 0x1000 (bareImage 0x160),
      sectionAlloc ia32 0x1000 (bareImage 0x160) i →
        Separate (sectionStart ia32 0x1000 (bareImage 0x160) i)
          (sectionSize ia32 0x1000 (bareImage 0x160) i).toNat 0x1000 ia32.headerBytes)
      i inside alloc)
  headers i inside alloc := Separate.apart
    ((by decide +kernel : ∀ i < sections ia32 0x1000 (bareImage 0x160),
      sectionAlloc ia32 0x1000 (bareImage 0x160) i →
        Separate (sectionStart ia32 0x1000 (bareImage 0x160) i)
          (sectionSize ia32 0x1000 (bareImage 0x160) i).toNat
          (shdr ia32 0x1000 (bareImage 0x160))
          (sections ia32 0x1000 (bareImage 0x160) * ia32.sectionBytes)) i inside alloc)

/-- The file is zero there. -/
theorem bareImage_cleared : Cleared 0x1000 (bareImage 0x160) (bareImage 0x160) := by
  rintro place ⟨i, inside, _, bare, within⟩
  have only : ∀ i < sections ia32 0x1000 (bareImage 0x160),
      sectionType ia32 0x1000 (bareImage 0x160) i = shtNobits → i = 4 := by decide +kernel
  obtain rfl := only i inside bare
  have start : sectionStart ia32 0x1000 (bareImage 0x160) 4 = 0x1160 := by decide +kernel
  have bytes : (sectionSize ia32 0x1000 (bareImage 0x160) 4).toNat = 8 := by decide +kernel
  rw [start, bytes] at within
  have zero : ∀ n < 8, bareImage 0x160 (0x1160 + .ofNat 32 n) = 0 := by decide +kernel
  have place_eq : place = 0x1160 + .ofNat 32 (place - 0x1160).toNat := by
    rw [BitVec.ofNat_toNat, BitVec.setWidth_eq, BitVec.add_comm, BitVec.sub_add_cancel]
  rw [place_eq]
  exact zero _ within

/-- Behind all else in the file, the bytes are zero for `Init`. -/
theorem sections_proper_iff_sample : ∃ init atInit constructors after,
    loadModule idleEnv.unbounded 0x1000 (bareImage 0x160) =
      .ok (.loaded init atInit constructors) after ∧
    Laid 0x1000 (bareImage 0x160) 0x168 ∧ Cleared 0x1000 (bareImage 0x160) atInit := by
  obtain ⟨init, atInit, constructors, after, _, loaded⟩ := bareImage_loaded (.inr rfl)
  have spared : Spared 0x1000 (bareImage 0x160) idleEnv := fun table r now reached =>
    absurd reached (not_visited (by decide +kernel))
  exact ⟨init, atInit, constructors, after, loaded,
    (sections_proper_iff spared loaded).mpr ⟨bareImage_laid, bareImage_cleared⟩⟩

/-- A section without bytes in the file that is where the strings are, as compilers place it, is
not apart from them. -/
theorem bare_section_shared :
    ¬ ∀ (env : Environment 32) (base init : BitVec 32) (size : Nat)
      (memory atInit after : Memory 32) (constructors : List (BitVec 32)),
      base.toNat + size ≤ 2 ^ 32 → loadModule env.unbounded base memory =
        .ok (.loaded init atInit constructors) after → init ≠ 0 →
      Laid base memory size ∧ Cleared base memory atInit := by
  intro claim
  obtain ⟨init, atInit, constructors, after, called, loaded⟩ := bareImage_loaded (.inl rfl)
  obtain ⟨laid, _⟩ := claim idleEnv 0x1000 init 0x158 _ atInit after constructors (by decide)
    loaded called
  exact laid.sections 4 (by decide +kernel) (by decide +kernel) 3 (by decide +kernel) (by decide)
    0x1150 (by decide +kernel) (by decide +kernel)

end Unarddeg.Elf.Ia32
