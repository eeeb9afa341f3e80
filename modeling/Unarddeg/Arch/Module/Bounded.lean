import Unarddeg.Arch.Module.Load
import Unarddeg.Arch.Module.Patched
import Unarddeg.Arch.Module.Visits
import Unarddeg.Library.Safe

/-!
# The bounds of a module

`LoadModule` of the 32-bit target is told the size of the image and never looks at it. What it reads
besides the words that it patches and the slots of the constructors are tables. When the tables,
words and slots of an image lie in it, and no patch and no code of the module changes a table, then
everything it reads and writes lies in the image (`never_outside`).
-/

namespace Unarddeg.Elf.Ia32

open Library

/-- Some bytes lie in the image. -/
def InImage (base : BitVec 32) (size : Nat) (address : BitVec 32) (bytes : Nat) : Prop :=
  base.toNat ≤ address.toNat ∧ address.toNat + bytes ≤ base.toNat + size

instance (base : BitVec 32) (size : Nat) (address : BitVec 32) (bytes : Nat) :
    Decidable (InImage base size address bytes) :=
  inferInstanceAs (Decidable (_ ∧ _))

/-- The environment in which only the image may be accessed. -/
def imageEnv (base : BitVec 32) (size : Nat) (findKernelSymbol : List (BitVec 8) → BitVec 32)
    (call : BitVec 32 → Memory 32 → Memory 32) : Environment 32 where
  inside address bytes := decide (InImage base size address bytes)
  findKernelSymbol := findKernelSymbol
  call := call

section Tables

variable (base : BitVec 32) (memory : Memory 32)

/-- The place of an entry of a table. -/
def placeOf (table : Table 32) (r : Nat) : BitVec 32 :=
  element table.start (table.entryBytes ia32) (.ofNat 32 r)

/-- The place of the word that it patches. -/
def wordOf (table : Table 32) (r : Nat) : BitVec 32 :=
  table.targetBase + loadAt 32 memory (placeOf table r)

/-- The index of its symbol. -/
def symIdxOf (table : Table 32) (r : Nat) : BitVec 32 :=
  loadAt 32 memory (placeOf table r + ia32.rInfo) >>> 8

/-- An entry of a module: a table in a section, and an index in it. -/
structure IsEntry (table : Table 32) (r : Nat) : Prop where
  /-- The table is that of a section. -/
  ofSection : ∃ i < sections ia32 base memory,
    tableOf ia32 base (shdr ia32 base memory) i memory = some table
  /-- The index is in it. -/
  inside : r < table.rounds ia32

/-- The place of a symbol. -/
def symbolAt (index : BitVec 32) : BitVec 32 :=
  element (moduleOf ia32 base memory).symtab ia32.symbolBytes index

/-- The place of its name. -/
def nameAt (index : BitVec 32) : BitVec 32 :=
  (moduleOf ia32 base memory).strtab + loadAt 32 memory (symbolAt base memory index)

/-- The number of bytes of its name. -/
def nameLength (index : BitVec 32) : Nat := (stringAt memory (nameAt base memory index)).length

/-- The tables of a module, as addresses and numbers of bytes. -/
inductive IsTable : BitVec 32 → Nat → Prop
  /-- The header of the file. -/
  | file : IsTable base ia32.headerBytes
  /-- The header of a section. -/
  | header (i : Nat) (inside : i < sections ia32 base memory) :
      IsTable (header ia32 base memory i) ia32.sectionBytes
  /-- The header of the strings. -/
  | link (i : Nat) (found : symtabSection ia32 base memory = some i) :
      IsTable (linkHeader ia32 base memory i) ia32.sectionBytes
  /-- The header of a section that is relocated. -/
  | target (i : Nat) (inside : i < sections ia32 base memory)
      (relocates : ¬ (sectionType ia32 base memory i ≠ shtRel ∧
        sectionType ia32 base memory i ≠ shtRela)) :
      IsTable (targetHeader ia32 base memory i) ia32.sectionBytes
  /-- An entry. -/
  | entry (table : Table 32) (r : Nat) (entry : IsEntry base memory table r) :
      IsTable (placeOf table r) (table.entryBytes ia32)
  /-- A symbol. -/
  | symbol (index : BitVec 32) (inside : index < (moduleOf ia32 base memory).symcount) :
      IsTable (symbolAt base memory index) ia32.symbolBytes
  /-- The name of a symbol and its end. -/
  | name (index : BitVec 32) (inside : index < (moduleOf ia32 base memory).symcount) :
      IsTable (nameAt base memory index) (nameLength base memory index + 1)

/-- The tables, words and slots of an image lie in it, and the words apart from the tables. -/
structure WellFormed (size : Nat) : Prop where
  /-- The image lies in the memory. -/
  fits : base.toNat + size ≤ 2 ^ 32
  /-- The tables lie in the image. -/
  tables : ∀ address bytes, IsTable base memory address bytes → InImage base size address bytes
  /-- The symbols of entries without addends are in the table. -/
  known : ∀ table r, IsEntry base memory table r → table.rela = false →
    symIdxOf memory table r < (moduleOf ia32 base memory).symcount
  /-- The words to be patched lie in the image. -/
  words : ∀ table r, IsEntry base memory table r → InImage base size (wordOf memory table r) 4
  /-- They lie apart from the tables. -/
  apart : ∀ table r, IsEntry base memory table r → ∀ address bytes,
    IsTable base memory address bytes → Apart (wordOf memory table r) 4 address bytes
  /-- The slots of the constructors lie in the image. -/
  slots : ∀ i < sections ia32 base memory, sectionType ia32 base memory i = shtInitArray →
    sectionAlloc ia32 base memory i → ∀ c < countOf (sectionSize ia32 base memory i) 4,
      InImage base size (element (sectionStart ia32 base memory i) 4 (.ofNat 32 c)) 4

/-- The tables are as they were. -/
def Intact (now : Memory 32) : Prop :=
  ∀ address bytes, IsTable base memory address bytes →
    ∀ place, Within address bytes place → now place = memory place

/-- An action keeps the tables and only accesses the image. -/
abbrev Bounded {α : Type} (action : Kernel (Memory 32) α) : Prop :=
  Safe .outOfBounds (Intact base memory) (fun _ => True) action

end Tables

section Accesses

variable {base : BitVec 32} {memory : Memory 32} {size bits bytes : Nat} {address : BitVec 32}
  {findKernelSymbol : List (BitVec 8) → BitVec 32} {call : BitVec 32 → Memory 32 → Memory 32}
  {table : Table 32} {r : Nat}

/-- A read in the image. -/
theorem safe_load (inside : InImage base size address (bits / 8)) :
    Bounded base memory
      (load (imageEnv base size findKernelSymbol call) bits address) := by
  unfold load
  apply Safe.get.bind
  intro now _
  apply Safe.ite
  · intro _
    exact Safe.pure trivial
  · intro outside
    exact absurd (decide_eq_true inside) outside

/-- A read of a table reads the image as it came. -/
theorem safe_table (wellFormed : WellFormed base memory size)
    (table : IsTable base memory address bytes) (index : Nat) (whole : 8 * (bits / 8) = bits)
    (some : 0 < bits / 8) (inside : index + bits / 8 ≤ bytes) :
    Safe .outOfBounds (Intact base memory)
      (fun value => value = loadAt bits memory (address + .ofNat 32 index))
      (load (imageEnv base size findKernelSymbol call) bits (address + .ofNat 32 index)) := by
  obtain ⟨above, below⟩ := wellFormed.tables address bytes table
  have fits := wellFormed.fits
  unfold load
  apply Safe.get.bind
  intro now intact
  apply Safe.ite
  · intro _
    apply Safe.pure
    apply loadAt_congr whole
    intro place within
    exact intact address bytes table place (within_part inside (by omega) within)
  · intro outside
    have place : (address + .ofNat 32 index).toNat = address.toNat + index := by
      rw [BitVec.toNat_add, BitVec.toNat_ofNat, Nat.add_mod_mod, Nat.mod_eq_of_lt (by omega)]
    exact absurd (decide_eq_true ⟨by omega, by omega⟩) outside

/-- A read of the first field of a table. -/
theorem safe_first (wellFormed : WellFormed base memory size)
    (table : IsTable base memory address bytes) (whole : 8 * (bits / 8) = bits)
    (some : 0 < bits / 8) (inside : bits / 8 ≤ bytes) :
    Safe .outOfBounds (Intact base memory) (fun value => value = loadAt bits memory address)
      (load (imageEnv base size findKernelSymbol call) bits address) := by
  have first : address + .ofNat 32 0 = address := BitVec.add_zero address
  have safe := @safe_table base memory size bits bytes address findKernelSymbol call wellFormed
    table 0 whole some (by omega)
  rwa [first] at safe

/-- A patch of a word of an entry. -/
theorem safe_patch (wellFormed : WellFormed base memory size)
    (entry : IsEntry base memory table r) (value : BitVec 32) :
    Bounded base memory
      (store (imageEnv base size findKernelSymbol call) (wordOf memory table r) value) := by
  unfold store
  apply Safe.get.bind
  intro now intact
  apply Safe.ite
  · intro _
    apply Safe.set
    intro address bytes table' place within
    rw [storeAt_outside fun here => wellFormed.apart table r entry address bytes table' place here
      within]
    exact intact address bytes table' place within
  · intro outside
    exact absurd (decide_eq_true (wellFormed.words table r entry)) outside

/-! ## Symbols -/

/-- The name of a symbol ends where its length says. -/
theorem stringFrom_end {count : Nat} (short : (stringFrom memory count address).length < count) :
    memory (address + .ofNat 32 (stringFrom memory count address).length) = 0 := by
  induction count generalizing address with
  | zero => omega
  | succ count ih =>
    rw [stringFrom] at short ⊢
    by_cases ends : memory address = 0
    · rw [if_pos ends]
      exact (congrArg memory (BitVec.add_zero address)).trans ends
    · rw [if_neg ends] at short ⊢
      rw [List.length_cons] at short ⊢
      rw [Nat.add_comm, BitVec.ofNat_add, ← BitVec.add_assoc]
      exact ih (Nat.lt_of_succ_lt_succ short)

/-- The end of the name of a symbol is in the image. -/
theorem name_end (wellFormed : WellFormed base memory size) {index : BitVec 32}
    (inside : index < (moduleOf ia32 base memory).symcount) :
    memory (nameAt base memory index + .ofNat 32 (nameLength base memory index)) = 0 := by
  obtain ⟨_, below⟩ := wellFormed.tables _ _ (.name index inside)
  have fits := wellFormed.fits
  apply stringFrom_end
  change nameLength base memory index < _
  omega

/-- The header of the section of a symbol. -/
theorem header_of_shndx {shndx : BitVec 16}
    (below : shndx < loadAt 16 memory (base + ia32.shnum)) :
    IsTable base memory (element (shdr ia32 base memory) ia32.sectionBytes (shndx.setWidth 32))
      ia32.sectionBytes := by
  rw [← BitVec.ofNat_toNat]
  exact .header shndx.toNat (BitVec.lt_def.mp below)

/-- The look-up of the symbol of an entry. -/
theorem safe_symbolAddress (wellFormed : WellFormed base memory size) {symIdx : BitVec 32}
    (inside : symIdx < (moduleOf ia32 base memory).symcount) (absolute : Bool) :
    Bounded base memory
      (symbolAddress ia32 (imageEnv base size findKernelSymbol call) absolute
        (moduleOf ia32 base memory) (shdr ia32 base memory) symIdx) := by
  have symbol : IsTable base memory (symbolAt base memory symIdx) 16 := .symbol symIdx inside
  unfold symbolAddress
  rw [BitVec.setWidth_eq]
  apply (safe_first wellFormed symbol rfl (by decide) (by decide)).bind
  intro stName nameIs
  apply (safe_table wellFormed symbol 14 rfl (by decide) (by decide)).bind
  intro shndx _
  apply Safe.ite
  · intro _
    have name : IsTable base memory (nameAt base memory symIdx)
        (nameLength base memory symIdx + 1) := .name symIdx inside
    rw [BitVec.setWidth_eq, nameIs]
    apply (safe_first wellFormed name rfl (by decide) (by omega)).bind
    intro first _
    apply Safe.ite
    · intro _
      apply Safe.get.bind
      intro now _
      exact Safe.pure trivial
    · intro _
      exact Safe.pure trivial
  · intro _
    apply (safe_table wellFormed .file 48 rfl (by decide) (by decide)).bind
    intro shnum shnumIs
    apply Safe.ite
    · intro below
      have header := header_of_shndx (shnumIs ▸ below)
      apply (safe_table wellFormed header 8 rfl (by decide) (by decide)).bind
      intro flags _
      apply Safe.ite
      · intro _
        apply (safe_table wellFormed header 16 rfl (by decide) (by decide)).bind
        intro sectionOffset _
        apply (safe_table wellFormed symbol 4 rfl (by decide) (by decide)).bind
        intro value _
        exact Safe.pure trivial
      · intro _
        apply (safe_table wellFormed symbol 4 rfl (by decide) (by decide)).bind
        intro value _
        exact Safe.pure trivial
    · intro _
      apply Safe.ite
      · intro _
        apply (safe_table wellFormed symbol 4 rfl (by decide) (by decide)).bind
        intro value _
        exact Safe.pure trivial
      · intro _
        exact Safe.pure trivial

/-! ## Entries -/

/-- The body of the loop over entries with addends. -/
theorem safe_relaEntry (wellFormed : WellFormed base memory size)
    (entry : IsEntry base memory table r) (rela : table.rela = true) :
    Bounded base memory
      (relaEntry (imageEnv base size findKernelSymbol call) (moduleOf ia32 base memory)
        (shdr ia32 base memory) table.targetBase table.start r) := by
  have place : element table.start ia32.relaBytes (.ofNat 32 r) = placeOf table r := by
    rw [placeOf, Table.entryBytes, if_pos rela]
  have isTable : IsTable base memory (placeOf table r) 12 := by
    have entryTable := IsTable.entry table r entry
    rwa [Table.entryBytes, if_pos rela] at entryTable
  have patch : ∀ value : BitVec 32, Bounded base memory
      (store (imageEnv base size findKernelSymbol call) (wordOf memory table r) value) :=
    fun value => safe_patch wellFormed entry value
  have addend : Safe .outOfBounds (Intact base memory)
      (fun value => value = loadAt 32 memory (placeOf table r + ia32.rAddend))
      (load (imageEnv base size findKernelSymbol call) 32 (placeOf table r + ia32.rAddend)) :=
    safe_table wellFormed isTable 8 rfl (by decide) (by decide)
  unfold relaEntry
  rw [place]
  apply (safe_table wellFormed isTable 4 rfl (by decide) (by decide)).bind
  intro info infoIs
  apply (safe_first wellFormed isTable rfl (by decide) (by decide)).bind
  intro offset offsetIs
  rw [offsetIs, ← wordOf]
  apply Safe.ite
  · intro _
    apply addend.bind
    intro value _
    apply (patch _).bind
    intro _ _
    exact Safe.pure trivial
  · intro _
    have looked : Bounded base memory
        (guardedAddress ia32 (imageEnv base size findKernelSymbol call) true
          (moduleOf ia32 base memory) (shdr ia32 base memory) (info >>> 8)) := by
      unfold guardedAddress
      apply Safe.ite
      · intro inside
        exact safe_symbolAddress wellFormed inside.2 true
      · intro _
        exact Safe.pure trivial
    apply looked.bind
    intro address _
    cases address with
    | none => exact Safe.pure trivial
    | some symAddr =>
      have switched : Bounded base memory
          (relaSwitch (imageEnv base size findKernelSymbol call) (placeOf table r) (info &&& 0xFF)
            (wordOf memory table r) symAddr) := by
        unfold relaSwitch
        split
        · exact addend.bind fun value _ => patch _
        · exact addend.bind fun value _ => patch _
        · exact addend.bind fun value _ => patch _
        all_goals first | exact patch _ | exact Safe.pure trivial
      exact switched.bind fun _ _ => Safe.pure trivial

/-- The body of the loop over entries without addends. -/
theorem safe_relEntry (wellFormed : WellFormed base memory size)
    (entry : IsEntry base memory table r) (rel : table.rela = false) :
    Bounded base memory
      (relEntry (imageEnv base size findKernelSymbol call) (moduleOf ia32 base memory)
        (shdr ia32 base memory) table.targetBase table.start r) := by
  have notRela : ¬ table.rela = true := by simp [rel]
  have place : element table.start ia32.relBytes (.ofNat 32 r) = placeOf table r := by
    rw [placeOf, Table.entryBytes, if_neg notRela]
  have isTable : IsTable base memory (placeOf table r) 8 := by
    have entryTable := IsTable.entry table r entry
    rwa [Table.entryBytes, if_neg notRela] at entryTable
  unfold relEntry
  rw [place]
  apply (safe_table wellFormed isTable 4 rfl (by decide) (by decide)).bind
  intro info infoIs
  apply (safe_first wellFormed isTable rfl (by decide) (by decide)).bind
  intro offset offsetIs
  rw [offsetIs, ← wordOf]
  apply (safe_load (wellFormed.words table r entry)).bind
  intro addend _
  have known := wellFormed.known table r entry rel
  rw [symIdxOf, ← show _ = loadAt 32 memory (placeOf table r + ia32.rInfo) from infoIs] at known
  apply (safe_symbolAddress wellFormed known false).bind
  intro address _
  cases address with
  | none => exact Safe.pure trivial
  | some symAddr =>
    have switched : Bounded base memory
        (relSwitch (imageEnv base size findKernelSymbol call) (info &&& 0xFF)
          (wordOf memory table r) symAddr addend) := by
      unfold relSwitch
      split
      all_goals first | exact safe_patch wellFormed entry _ | exact Safe.pure trivial
    exact switched.bind fun _ _ => Safe.pure trivial

/-! ## Sections -/

/-- The test of the loops over the sections. -/
theorem safe_moreSections (wellFormed : WellFormed base memory size) (i : Nat) :
    Safe .outOfBounds (Intact base memory)
      (fun more => more = true → i < sections ia32 base memory)
      (moreSections ia32 (imageEnv base size findKernelSymbol call) base i) := by
  unfold moreSections
  apply (safe_table wellFormed .file 48 rfl (by decide) (by decide)).bind
  intro shnum shnumIs
  apply Safe.pure
  intro more
  rw [shnumIs] at more
  exact of_decide_eq_true more

/-- The rounds of a table of entries with addends. -/
theorem rounds_rela (rela : table.rela = true) :
    table.rounds ia32 = countOf table.size ia32.relaBytes := by
  rw [Table.rounds, Table.entryBytes, if_pos rela]

/-- The rounds of a table of entries without addends. -/
theorem rounds_rel (rel : table.rela = false) :
    table.rounds ia32 = countOf table.size ia32.relBytes := by
  rw [Table.rounds, Table.entryBytes, if_neg (by simp [rel])]

/-- The loop over a table of entries with addends. -/
theorem safe_relaLoop (wellFormed : WellFormed base memory size)
    (ofSection : ∃ i < sections ia32 base memory,
      tableOf ia32 base (shdr ia32 base memory) i memory = some table)
    (rela : table.rela = true) :
    Bounded base memory (loop (moreEntries (countOf table.size ia32.relaBytes))
      (relaEntry (imageEnv base size findKernelSymbol call) (moduleOf ia32 base memory)
        (shdr ia32 base memory) table.targetBase table.start)
      (countOf table.size ia32.relaBytes) 0) := by
  rw [← rounds_rela rela]
  apply Safe.loop fun r => Safe.pure fun more => of_decide_eq_true more
  intro r small
  exact safe_relaEntry wellFormed ⟨ofSection, small⟩ rela

/-- The loop over a table of entries without addends. -/
theorem safe_relLoop (wellFormed : WellFormed base memory size)
    (ofSection : ∃ i < sections ia32 base memory,
      tableOf ia32 base (shdr ia32 base memory) i memory = some table)
    (rel : table.rela = false) :
    Bounded base memory (loop (moreEntries (countOf table.size ia32.relBytes))
      (relEntry (imageEnv base size findKernelSymbol call) (moduleOf ia32 base memory)
        (shdr ia32 base memory) table.targetBase table.start)
      (countOf table.size ia32.relBytes) 0) := by
  rw [← rounds_rel rel]
  apply Safe.loop fun r => Safe.pure fun more => of_decide_eq_true more
  intro r small
  exact safe_relEntry wellFormed ⟨ofSection, small⟩ rel

/-- The body of the loop over the sections. -/
theorem safe_relocateSection (wellFormed : WellFormed base memory size) {i : Nat}
    (inside : i < sections ia32 base memory) :
    Bounded base memory
      (relocateSection ia32 (imageEnv base size findKernelSymbol call)
        (relaEntry (imageEnv base size findKernelSymbol call))
        (relEntry (imageEnv base size findKernelSymbol call)) (moduleOf ia32 base memory)
        (shdr ia32 base memory) i) := by
  have header : IsTable base memory (header ia32 base memory i) 40 := .header i inside
  have moduleBase : (moduleOf ia32 base memory).base = base := rfl
  unfold relocateSection
  rw [moduleBase]
  apply (safe_table wellFormed header 4 rfl (by decide) (by decide)).bind
  intro type typeIs
  apply Safe.ite
  · intro _
    exact Safe.pure trivial
  intro relocates
  have target : IsTable base memory (targetHeader ia32 base memory i) 40 :=
    .target i inside (by rw [typeIs] at relocates; exact relocates)
  apply (safe_table wellFormed header 28 rfl (by decide) (by decide)).bind
  intro info infoIs
  rw [infoIs]
  apply (safe_table wellFormed target 8 rfl (by decide) (by decide)).bind
  intro flags flagsIs
  apply Safe.ite
  · intro _
    exact Safe.pure trivial
  intro alloc
  apply (safe_table wellFormed target 16 rfl (by decide) (by decide)).bind
  intro targetOffset targetOffsetIs
  apply (safe_table wellFormed header 16 rfl (by decide) (by decide)).bind
  intro tableOffset tableOffsetIs
  apply (safe_table wellFormed header 20 rfl (by decide) (by decide)).bind
  intro bytes bytesIs
  have found : ∃ j < sections ia32 base memory,
      tableOf ia32 base (shdr ia32 base memory) j memory = some
        ⟨decide (type = shtRela), base + targetOffset, base + tableOffset, bytes⟩ := by
    refine ⟨i, inside, ?_⟩
    rw [typeIs] at relocates ⊢
    rw [flagsIs] at alloc
    rw [targetOffsetIs, tableOffsetIs, bytesIs]
    unfold tableOf
    exact (if_neg relocates).trans (if_neg alloc)
  apply Safe.ite
  · intro isRela
    have looped := @safe_relaLoop base memory size findKernelSymbol call _ wellFormed found
      (decide_eq_true isRela)
    exact looped
  · intro notRela
    have looped := @safe_relLoop base memory size findKernelSymbol call _ wellFormed found
      (decide_eq_false notRela)
    exact looped

/-- The first loop finds the module of the image. -/
theorem safe_findSymtab (wellFormed : WellFormed base memory size) (count i : Nat)
    (enough : sections ia32 base memory ≤ i + count)
    (before : ∀ j < i, sectionType ia32 base memory j ≠ shtSymtab) :
    Safe .outOfBounds (Intact base memory) (fun mod => mod = moduleOf ia32 base memory)
      (findSymtab ia32 (imageEnv base size findKernelSymbol call) ⟨base, 0, 0, 0⟩
        (shdr ia32 base memory) count i) := by
  have moreOf : ∀ i, Safe .outOfBounds (Intact base memory)
      (fun more => more = decide (i < sections ia32 base memory))
      (moreSections ia32 (imageEnv base size findKernelSymbol call) base i) := by
    intro i
    unfold moreSections
    apply (safe_table wellFormed .file 48 rfl (by decide) (by decide)).bind
    intro shnum shnumIs
    apply Safe.pure
    rw [shnumIs]
    rfl
  induction count generalizing i with
  | zero =>
    rw [findSymtab]
    exact Safe.pure (moduleOf_none fun j small => before j (by omega)).symm
  | succ count ih =>
    rw [findSymtab]
    apply (moreOf i).bind
    intro more moreIs
    apply Safe.ite
    · intro yes
      have inside : i < sections ia32 base memory := of_decide_eq_true (moreIs ▸ yes)
      have header : IsTable base memory (header ia32 base memory i) 40 := .header i inside
      apply (safe_table wellFormed header 4 rfl (by decide) (by decide)).bind
      intro type typeIs
      have ofSection : type = sectionType ia32 base memory i := typeIs
      apply Safe.ite
      · intro found
        rw [ofSection] at found
        have here : symtabSection ia32 base memory = some i := by
          rw [symtabSection, List.find?_range_eq_some]
          exact ⟨decide_eq_true found, List.mem_range.mpr inside, fun j small => by
            simpa using before j small⟩
        have link : IsTable base memory (linkHeader ia32 base memory i) 40 := .link i here
        apply (safe_table wellFormed header 16 rfl (by decide) (by decide)).bind
        intro offset offsetIs
        apply (safe_table wellFormed header 20 rfl (by decide) (by decide)).bind
        intro bytes bytesIs
        apply (safe_table wellFormed header 24 rfl (by decide) (by decide)).bind
        intro strings stringsIs
        rw [stringsIs]
        apply (safe_table wellFormed link 16 rfl (by decide) (by decide)).bind
        intro stringOffset stringOffsetIs
        apply Safe.pure
        rw [offsetIs, bytesIs, stringOffsetIs, moduleOf, here]
        rfl
      · intro other
        apply ih (i + 1) (by omega)
        intro j small
        rcases Nat.lt_succ_iff_lt_or_eq.mp small with old | rfl
        · exact before j old
        · rwa [ofSection] at other
    · intro no
      have outside : ¬ i < sections ia32 base memory := by
        rw [moreIs] at no
        exact fun inside => no (decide_eq_true inside)
      exact Safe.pure (moduleOf_none fun j small => before j (by omega)).symm

/-- `RelocateModule`. -/
theorem safe_relocateModule (wellFormed : WellFormed base memory size) :
    Safe .outOfBounds (Intact base memory) (fun result => result.2 = moduleOf ia32 base memory)
      (Ia32.relocateModule (imageEnv base size findKernelSymbol call) base) := by
  have few : sections ia32 base memory ≤ 65536 := Nat.le_of_lt (loadAt 16 memory _).isLt
  unfold Ia32.relocateModule Elf.relocateModule
  apply (safe_table wellFormed .file 32 rfl (by decide) (by decide)).bind
  intro shoff shoffIs
  rw [shoffIs]
  apply (safe_findSymtab wellFormed 65536 0 (by omega) (by simp)).bind
  intro mod modIs
  rw [modIs]
  apply (Safe.loop (safe_moreSections wellFormed)
    (fun i inside => safe_relocateSection wellFormed inside) 65536 0).bind
  intro done _
  exact Safe.pure rfl

/-! ## The other functions -/

/-- A comparison with the name of a symbol stops at its end. -/
theorem safe_strncmpAt (wellFormed : WellFormed base memory size) {index : BitVec 32}
    (inside : index < (moduleOf ia32 base memory).symcount) (len done : Nat)
    (within : done ≤ nameLength base memory index) (rhs : List (BitVec 8)) :
    Bounded base memory (strncmpAt (imageEnv base size findKernelSymbol call) len
      (nameAt base memory index + .ofNat 32 done) rhs) := by
  induction len generalizing done rhs with
  | zero => exact Safe.pure trivial
  | succ len ih =>
    rw [strncmpAt]
    apply (safe_table wellFormed (.name index inside) done rfl (by decide) (by omega)).bind
    intro left leftIs
    rw [loadAt_byte] at leftIs
    apply Safe.ite
    · intro _
      exact Safe.pure trivial
    · intro goesOn
      rw [BitVec.add_assoc, ← show BitVec.ofNat 32 (done + 1) = .ofNat 32 done + 1 from
        BitVec.ofNat_add ..]
      apply ih
      rcases Nat.lt_or_eq_of_le within with before | last
      · exact before
      · rw [last, name_end wellFormed inside] at leftIs
        exact absurd (.inr leftIs) goesOn

/-- The address of a symbol that `FindSymbol` found. -/
theorem safe_foundAddress (wellFormed : WellFormed base memory size) {index : BitVec 32}
    (inside : index < (moduleOf ia32 base memory).symcount) :
    Bounded base memory (foundAddress ia32 (imageEnv base size findKernelSymbol call) base
      (shdr ia32 base memory) (symbolAt base memory index)) := by
  have symbol : IsTable base memory (symbolAt base memory index) 16 := .symbol index inside
  have value : ∀ next : BitVec 32 → BitVec 32, Bounded base memory
      (load (imageEnv base size findKernelSymbol call) 32
        (symbolAt base memory index + ia32.stValue) >>= fun value => pure (next value)) := by
    intro next
    apply (safe_table wellFormed symbol 4 rfl (by decide) (by decide)).bind
    intro _ _
    exact Safe.pure trivial
  unfold foundAddress
  apply (safe_table wellFormed symbol 14 rfl (by decide) (by decide)).bind
  intro sectionIdx _
  apply Safe.ite
  · intro _
    exact (safe_table wellFormed symbol 4 rfl (by decide) (by decide)).mono fun _ _ => trivial
  intro _
  apply Safe.ite
  · intro _
    exact value _
  intro _
  apply (safe_table wellFormed .file 48 rfl (by decide) (by decide)).bind
  intro shnum shnumIs
  apply Safe.ite
  · intro known
    rw [shnumIs] at known
    apply (safe_table wellFormed (header_of_shndx known.1) 16 rfl (by decide) (by decide)).bind
    intro sectionOffset _
    exact value _
  intro _
  apply Safe.ite
  · intro _
    exact Safe.pure trivial
  · intro _
    exact value _

/-- The loop of `FindSymbol`. -/
theorem safe_findSymbolFrom (wellFormed : WellFormed base memory size) (name : List (BitVec 8))
    (rounds i : Nat) (enough : i + rounds ≤ (moduleOf ia32 base memory).symcount.toNat) :
    Bounded base memory (findSymbolFrom ia32 (imageEnv base size findKernelSymbol call)
      (moduleOf ia32 base memory) (shdr ia32 base memory) name rounds i) := by
  induction rounds generalizing i with
  | zero => exact Safe.pure trivial
  | succ rounds ih =>
    have bound := (moduleOf ia32 base memory).symcount.isLt
    have inside : BitVec.ofNat 32 i < (moduleOf ia32 base memory).symcount := by
      rw [BitVec.lt_def, BitVec.toNat_ofNat, Nat.mod_eq_of_lt (by omega)]
      omega
    have symbol : IsTable base memory (symbolAt base memory (.ofNat 32 i)) 16 :=
      .symbol _ inside
    rw [findSymbolFrom]
    apply (safe_first wellFormed symbol rfl (by decide) (by decide)).bind
    intro stName nameIs
    rw [BitVec.setWidth_eq, nameIs]
    have notNull : Bounded base memory (panicIf
        (nameAt base memory (.ofNat 32 i) = 0) .nullPointerDereference) := by
      unfold panicIf
      apply Safe.ite
      · intro _
        exact Safe.throw (by decide)
      · intro _
        exact Safe.pure trivial
    apply notNull.bind
    intro _ _
    have compared := @safe_strncmpAt base memory size findKernelSymbol call wellFormed _ inside 128
      0 (Nat.zero_le _) name
    rw [show nameAt base memory (.ofNat 32 i) + .ofNat 32 0 = nameAt base memory (.ofNat 32 i) from
      BitVec.add_zero _] at compared
    apply compared.bind
    intro same _
    apply Safe.ite
    · intro _
      exact safe_foundAddress wellFormed inside
    · intro _
      exact ih (i + 1) (by omega)

/-- `FindSymbol`. -/
theorem safe_findSymbol (wellFormed : WellFormed base memory size) (name : List (BitVec 8)) :
    Bounded base memory (findSymbol ia32 (imageEnv base size findKernelSymbol call)
      (moduleOf ia32 base memory) name) := by
  unfold findSymbol
  apply (safe_table wellFormed .file 32 rfl (by decide) (by decide)).bind
  intro shoff shoffIs
  rw [shoffIs]
  exact safe_findSymbolFrom wellFormed name _ 0 (by omega)

/-- The code of a module leaves the tables as they are. -/
def Leaves (base : BitVec 32) (memory : Memory 32) (call : BitVec 32 → Memory 32 → Memory 32) :
    Prop :=
  ∀ function now, Intact base memory now → Intact base memory (call function now)

/-- The inner loop of `CallConstructors`. -/
theorem safe_callSlots (leaves : Leaves base memory call) {initFuncs : BitVec 32} {count : Nat}
    (slots : ∀ c < count, InImage base size (element initFuncs 4 (.ofNat 32 c)) 4)
    (rounds c : Nat) (enough : c + rounds ≤ count) :
    Bounded base memory (callSlots (imageEnv base size findKernelSymbol call) initFuncs rounds
      c) := by
  induction rounds generalizing c with
  | zero => exact Safe.pure trivial
  | succ rounds ih =>
    rw [callSlots]
    apply (safe_load (slots c (by omega))).bind
    intro function _
    apply Safe.ite
    · intro _
      exact ih (c + 1) (by omega)
    · intro _
      apply (Safe.change fun now intact => leaves function now intact).bind
      intro _ _
      apply (ih (c + 1) (by omega)).bind
      intro later _
      exact Safe.pure trivial

/-- The loop of `CallConstructors`. -/
theorem safe_callConstructorsFrom (wellFormed : WellFormed base memory size)
    (leaves : Leaves base memory call) (count i : Nat) :
    Bounded base memory (callConstructorsFrom ia32 (imageEnv base size findKernelSymbol call) base
      (shdr ia32 base memory) count i) := by
  induction count generalizing i with
  | zero => exact Safe.pure trivial
  | succ count ih =>
    rw [callConstructorsFrom]
    apply (safe_moreSections wellFormed i).bind
    intro more known
    apply Safe.ite
    · intro yes
      have inside := known yes
      have header : IsTable base memory (header ia32 base memory i) 40 := .header i inside
      apply (safe_table wellFormed header 4 rfl (by decide) (by decide)).bind
      intro type typeIs
      apply Safe.ite
      · intro initArray
        apply (safe_table wellFormed header 8 rfl (by decide) (by decide)).bind
        intro flags flagsIs
        apply Safe.ite
        · intro _
          exact ih (i + 1)
        · intro alloc
          apply (safe_table wellFormed header 16 rfl (by decide) (by decide)).bind
          intro offset offsetIs
          apply (safe_table wellFormed header 20 rfl (by decide) (by decide)).bind
          intro bytes bytesIs
          rw [typeIs] at initArray
          rw [flagsIs] at alloc
          rw [offsetIs, bytesIs]
          have slots := wellFormed.slots i inside initArray alloc
          apply (safe_callSlots leaves slots _ 0 (Nat.le_of_eq (Nat.zero_add _))).bind
          intro first _
          apply (ih (i + 1)).bind
          intro later _
          exact Safe.pure trivial
      · intro _
        exact ih (i + 1)
    · intro _
      exact Safe.pure trivial

/-- A chain of `&&` over bytes of the header. -/
theorem safe_bytesAre (wellFormed : WellFormed base memory size) (bytes : List (BitVec 8))
    (done : Nat) (within : done + bytes.length ≤ 52) :
    Bounded base memory (bytesAre (imageEnv base size findKernelSymbol call)
      (base + .ofNat 32 done) bytes) := by
  induction bytes generalizing done with
  | nil => exact Safe.pure trivial
  | cons byte bytes ih =>
    rw [List.length_cons] at within
    have header : IsTable base memory base 52 := .file
    rw [bytesAre]
    apply (safe_table wellFormed header done rfl (by decide) (by omega)).bind
    intro first _
    apply Safe.ite
    · intro _
      rw [BitVec.add_assoc, ← show BitVec.ofNat 32 (done + 1) = .ofNat 32 done + 1 from
        BitVec.ofNat_add ..]
      exact ih (done + 1) (by omega)
    · intro _
      exact Safe.pure trivial

/-- **Bounds.** `LoadModule` only accesses the image when its tables, words and slots lie in it, the
words apart from the tables, and the code of the module leaves the tables as they are. -/
theorem never_outside (wellFormed : WellFormed base memory size)
    (leaves : Leaves base memory call) (after : Memory 32) :
    Ia32.loadModule (imageEnv base size findKernelSymbol call) base memory ≠
      .error .outOfBounds after := by
  have safe : Bounded base memory
      (Ia32.loadModule (imageEnv base size findKernelSymbol call) base) := by
    unfold Ia32.loadModule Elf.loadModule
    have magic := @safe_bytesAre base memory size findKernelSymbol call wellFormed
      [0x7F, 0x45, 0x4C, 0x46] 0 (by decide)
    rw [show base + .ofNat 32 0 = base from BitVec.add_zero _] at magic
    apply magic.bind
    intro elf _
    apply Safe.ite
    · intro _
      apply (safe_table wellFormed .file 16 rfl (by decide) (by decide)).bind
      intro type _
      apply Safe.ite
      · intro _
        exact Safe.pure trivial
      · intro _
        apply (safe_relocateModule wellFormed).bind
        rintro ⟨done, mod⟩ modIs
        obtain rfl : mod = moduleOf ia32 base memory := modIs
        apply Safe.ite
        · intro _
          apply (safe_findSymbol wellFormed _).bind
          intro init _
          apply Safe.get.bind
          intro atInit _
          have called : Bounded base memory (onlyIf (init ≠ 0) do
              modify ((imageEnv base size findKernelSymbol call).call init)) := by
            unfold onlyIf
            apply Safe.ite
            · intro _
              exact Safe.change fun now intact => leaves init now intact
            · intro _
              exact Safe.pure trivial
          apply called.bind
          intro _ _
          have constructed : Bounded base memory
              (callConstructors ia32 (imageEnv base size findKernelSymbol call) base) := by
            unfold callConstructors
            apply (safe_table wellFormed .file 32 rfl (by decide) (by decide)).bind
            intro shoff shoffIs
            rw [shoffIs]
            exact safe_callConstructorsFrom wellFormed leaves 65536 0
          apply constructed.bind
          intro constructors _
          exact Safe.pure trivial
        · intro _
          exact Safe.pure trivial
    · intro _
      exact Safe.pure trivial
  exact (safe memory fun _ _ _ _ _ => rfl).1 after

end Accesses

/-- The table of the sample. -/
def sampleTable : Table 32 := ⟨false, 0x1100, 0x1160, 8⟩

/-- The entries of the sample. -/
theorem sample_entry {table : Table 32} {r : Nat} (entry : IsEntry 0x1000 sampleImage table r) :
    table = sampleTable ∧ r = 0 := by
  obtain ⟨⟨i, inside, found⟩, small⟩ := entry
  have all : ∀ i < sections ia32 0x1000 sampleImage, tableOf ia32 0x1000
      (shdr ia32 0x1000 sampleImage) i sampleImage = if i = 4 then some sampleTable else none := by
    decide +kernel
  rw [all i inside] at found
  split at found
  · obtain rfl := Option.some.inj found
    have rounds : sampleTable.rounds ia32 = 1 := by decide
    exact ⟨rfl, by omega⟩
  · cases found

/-- What holds of all tables of the sample. -/
theorem sample_tables {property : BitVec 32 → Nat → Prop} (file : property 0x1000 52)
    (headers : ∀ i < 5, property (header ia32 0x1000 sampleImage i) 40)
    (link : property (linkHeader ia32 0x1000 sampleImage 2) 40)
    (target : property (targetHeader ia32 0x1000 sampleImage 4) 40)
    (entry : property (placeOf sampleTable 0) 8)
    (symbols : ∀ n < 3, property (symbolAt 0x1000 sampleImage (.ofNat 32 n)) 16)
    (names : ∀ n < 3, property (nameAt 0x1000 sampleImage (.ofNat 32 n))
      (nameLength 0x1000 sampleImage (.ofNat 32 n) + 1))
    {address : BitVec 32} {bytes : Nat} (table : IsTable 0x1000 sampleImage address bytes) :
    property address bytes := by
  have five : sections ia32 0x1000 sampleImage = 5 := by decide +kernel
  have three : (moduleOf ia32 0x1000 sampleImage).symcount = 3 := by decide +kernel
  have small : ∀ {index : BitVec 32}, index < (moduleOf ia32 0x1000 sampleImage).symcount →
      ∃ n < 3, index = .ofNat 32 n := fun {index} inside =>
    ⟨index.toNat, BitVec.lt_def.mp (three ▸ inside), by simp⟩
  cases table with
  | file => exact file
  | header i inside => exact headers i (five ▸ inside)
  | link i found =>
    have second : symtabSection ia32 0x1000 sampleImage = some 2 := by decide +kernel
    obtain rfl := Option.some.inj (second.symm.trans found)
    exact link
  | target i inside relocates =>
    have only : ∀ i < sections ia32 0x1000 sampleImage,
        ¬ (sectionType ia32 0x1000 sampleImage i ≠ shtRel ∧
          sectionType ia32 0x1000 sampleImage i ≠ shtRela) → i = 4 := by decide +kernel
    exact only i inside relocates ▸ target
  | entry table r isEntry =>
    obtain ⟨rfl, rfl⟩ := sample_entry isEntry
    exact entry
  | symbol index inside =>
    obtain ⟨n, below, rfl⟩ := small inside
    exact symbols n below
  | name index inside =>
    obtain ⟨n, below, rfl⟩ := small inside
    exact names n below

/-- The sample is well formed. -/
theorem sample_wellFormed : WellFormed 0x1000 sampleImage 0x168 where
  fits := by decide
  tables _ _ := sample_tables (by decide) (by decide +kernel) (by decide +kernel)
    (by decide +kernel) (by decide +kernel) (by decide +kernel) (by decide +kernel)
  known table r entry _ := by
    obtain ⟨rfl, rfl⟩ := sample_entry entry
    decide +kernel
  words table r entry := by
    obtain ⟨rfl, rfl⟩ := sample_entry entry
    decide +kernel
  apart table r entry _ _ := by
    obtain ⟨rfl, rfl⟩ := sample_entry entry
    have separate : ∀ {address : BitVec 32} {bytes : Nat},
        IsTable 0x1000 sampleImage address bytes →
        Separate (wordOf sampleImage sampleTable 0) 4 address bytes :=
      sample_tables (by decide +kernel) (by decide +kernel) (by decide +kernel)
        (by decide +kernel) (by decide +kernel) (by decide +kernel) (by decide +kernel)
    exact fun isTable => (separate isTable).apart
  slots := by
    have none : ∀ i < sections ia32 0x1000 sampleImage,
        sectionType ia32 0x1000 sampleImage i ≠ shtInitArray := by decide +kernel
    exact fun i inside initArray => absurd initArray (none i inside)

/-- The sample is loaded in its bounds. -/
theorem never_outside_sample : Ia32.loadModule
    (imageEnv 0x1000 0x168 (kernelOf 0x5000).findKernelSymbol fun _ memory => memory) 0x1000
      sampleImage ≠ .error .outOfBounds sampleImage :=
  never_outside sample_wellFormed (fun _ _ intact => intact) sampleImage

/-- A header whose section headers lie behind the end of the image. -/
def headerOnly : Memory 32 := memoryOf
  [(0x1000, 0x464C457F), (0x1010, 1), (0x1020, 0x2000), (0x1030, 1)]

/-- No image is rejected for its offsets: this one is read outside. -/
theorem headers_read_outside : ¬ ∀ (base : BitVec 32) (size : Nat) (memory : Memory 32)
    (findKernelSymbol : List (BitVec 8) → BitVec 32) (call : BitVec 32 → Memory 32 → Memory 32)
    (after : Memory 32), base.toNat + size ≤ 2 ^ 32 →
      Ia32.loadModule (imageEnv base size findKernelSymbol call) base memory ≠
        .error .outOfBounds after := by
  intro claim
  have stops : (match Ia32.loadModule (imageEnv 0x1000 52 (fun _ => 0) fun _ memory => memory)
      0x1000 headerOnly with
    | .error .outOfBounds _ => true
    | _ => false) = true := by decide +kernel
  split at stops
  · rename_i after ended
    exact claim _ _ _ _ _ after (by decide) ended
  · cases stops

end Unarddeg.Elf.Ia32
