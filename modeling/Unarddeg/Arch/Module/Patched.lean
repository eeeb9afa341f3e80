import Unarddeg.Arch.Module.Formats
import Unarddeg.Arch.Module.Tables

/-!
# The words of a relocated module

`RelocateModule` of the 32-bit target patches the module while it reads its tables there. As long as
the words it patches lie apart from the tables, all its reads are of the module as it came
(`Unpatched`), so that it runs through the entries of the original module, and each word is patched
once (`relocated_words`).
-/

namespace Unarddeg.Elf.Ia32

open Library

/-! ## The entries of a module -/

section Entries

variable (base : BitVec 32) (memory : Memory 32)

/-- A relocation entry, by its section and its index. -/
abbrev Entry := Nat × Nat

/-- The entries without addends that a section has for a section with `SHF_ALLOC`. -/
def sectionEntries (i : Nat) : List Entry :=
  if sectionType ia32 base memory i = shtRel ∧ targetAlloc ia32 base memory i then
    (List.range ((sectionSize ia32 base memory i).toNat / 8)).map fun r => (i, r)
  else []

/-- The entries of a module, in the order of the loops. -/
def entries : List Entry :=
  (List.range (sections ia32 base memory)).flatMap (sectionEntries base memory)

variable (entry : Entry)

/-- The place of an entry. -/
def entryPlace : BitVec 32 :=
  element (sectionStart ia32 base memory entry.1) ia32.relBytes (.ofNat 32 entry.2)

/-- `r_info` of an entry. -/
def entryInfo : BitVec 32 := loadAt 32 memory (entryPlace base memory entry + ia32.rInfo)

/-- The type of an entry. -/
def entryType : BitVec 32 := entryInfo base memory entry &&& 0xFF

/-- The index of the symbol of an entry. -/
def entrySymIdx : BitVec 32 := entryInfo base memory entry >>> 8

/-- The place of the symbol of an entry. -/
def symbolPlace : BitVec 32 :=
  element (moduleOf ia32 base memory).symtab ia32.symbolBytes (entrySymIdx base memory entry)

/-- The place of the name of that symbol. -/
def namePlace : BitVec 32 :=
  (moduleOf ia32 base memory).strtab + loadAt 32 memory (symbolPlace base memory entry)

/-- The symbol of an entry. -/
def entrySymbol : Symbol 32 :=
  symbolOf ia32 (moduleOf ia32 base memory) (shdr ia32 base memory)
      (entrySymIdx base memory entry) memory

/-- The place of the word that an entry patches. -/
def patchPlace : BitVec 32 :=
  base + loadAt 32 memory (targetHeader ia32 base memory entry.1 + ia32.shOffset) +
    loadAt 32 memory (entryPlace base memory entry)

end Entries

/-- A module whose entries can all be applied, and whose words to be patched lie apart from each
other and from its tables. -/
structure Plain (base : BitVec 32) (memory : Memory 32) : Prop where
  /-- There are no entries with addends. -/
  noRela : ∀ i < sections ia32 base memory, sectionType ia32 base memory i ≠ shtRela
  /-- The types. -/
  types : ∀ entry ∈ entries base memory, entryType base memory entry = 1 ∨
    entryType base memory entry = 2 ∨ entryType base memory entry = 4
  /-- The symbols are in the table. -/
  inRange : ∀ entry ∈ entries base memory,
    entrySymIdx base memory entry < (moduleOf ia32 base memory).symcount
  /-- They are undefined ones with a name, or defined in a section with `SHF_ALLOC`. -/
  known : ∀ entry ∈ entries base memory,
    let symbol := entrySymbol base memory entry
    (symbol.shndx = shnUndef ∧ symbol.name ≠ []) ∨
      (symbol.shndx ≠ shnUndef ∧ symbol.shndx < symbol.shnum ∧
        symbol.flags &&& shfAlloc 32 ≠ 0)
  /-- The words do not overlap. -/
  apart : (entries base memory).Pairwise fun entry later =>
    Apart (patchPlace base memory entry) 4 (patchPlace base memory later) 4
  /-- They lie apart from the header of the file. -/
  fromHeader : ∀ entry ∈ entries base memory,
    Apart (patchPlace base memory entry) 4 base ia32.headerBytes
  /-- From the section headers. -/
  fromSections : ∀ entry ∈ entries base memory, ∀ i < sections ia32 base memory,
    Apart (patchPlace base memory entry) 4 (header ia32 base memory i) ia32.sectionBytes
  /-- From the headers of the sections that the entries are for. -/
  fromTargets : ∀ entry ∈ entries base memory, ∀ i < sections ia32 base memory,
    sectionType ia32 base memory i = shtRel →
      Apart (patchPlace base memory entry) 4 (targetHeader ia32 base memory i) ia32.sectionBytes
  /-- From the symbols. -/
  fromSymbols : ∀ entry ∈ entries base memory,
    Apart (patchPlace base memory entry) 4 (moduleOf ia32 base memory).symtab
      (16 * (moduleOf ia32 base memory).symcount.toNat)
  /-- From the names of the undefined symbols. -/
  fromStrings : ∀ entry ∈ entries base memory, ∀ other ∈ entries base memory,
    (entrySymbol base memory other).shndx = shnUndef →
      Apart (patchPlace base memory entry) 4 (namePlace base memory other)
        ((entrySymbol base memory other).name.length + 1)
  /-- From the entries. -/
  fromEntries : ∀ entry ∈ entries base memory, ∀ i < sections ia32 base memory,
    sectionType ia32 base memory i = shtRel →
      Apart (patchPlace base memory entry) 4 (sectionStart ia32 base memory i)
        (sectionSize ia32 base memory i).toNat

/-! ## Reads of a module that is being patched -/

/-- Outside the words to be patched the module is as it was. -/
def Unpatched (base : BitVec 32) (memory now : Memory 32) : Prop :=
  ∀ place, (∀ entry ∈ entries base memory, ¬ Within (patchPlace base memory entry) 4 place) →
    now place = memory place

section Reads

variable {base : BitVec 32} {memory now : Memory 32} {bits : Nat} {place : BitVec 32}

/-- A word apart from those to be patched is as it was. -/
theorem Unpatched.loadAt (unpatched : Unpatched base memory now) (whole : 8 * (bits / 8) = bits)
    (apart : ∀ entry ∈ entries base memory,
      Apart (patchPlace base memory entry) 4 place (bits / 8)) :
    loadAt bits now place = loadAt bits memory place :=
  loadAt_congr whole fun inner inside =>
    unpatched inner fun entry member => (apart entry member).symm inner inside

/-- Nothing has been patched yet. -/
theorem Unpatched.start (base : BitVec 32) (memory : Memory 32) : Unpatched base memory memory :=
  fun _ _ => rfl

/-- A word to be patched was patched. -/
theorem Unpatched.patch (unpatched : Unpatched base memory now) {entry : Entry}
    (member : entry ∈ entries base memory) (value : BitVec 32) :
    Unpatched base memory (storeAt now (patchPlace base memory entry) value) :=
  fun inner outside => (storeAt_outside (outside entry member)).trans (unpatched inner outside)

/-- An entry lies in its section. -/
theorem mem_entries {entry : Entry} : entry ∈ entries base memory ↔
    entry.1 < sections ia32 base memory ∧ sectionType ia32 base memory entry.1 = shtRel ∧
      targetAlloc ia32 base memory entry.1 ∧
        entry.2 < (sectionSize ia32 base memory entry.1).toNat / 8 := by
  obtain ⟨i, r⟩ := entry
  simp only [entries, List.mem_flatMap, List.mem_range, sectionEntries]
  constructor
  · rintro ⟨other, inside, member⟩
    by_cases table : sectionType ia32 base memory other = shtRel ∧
        targetAlloc ia32 base memory other
    · rw [if_pos table] at member
      simp only [List.mem_map, List.mem_range, Prod.mk.injEq] at member
      obtain ⟨_, small, rfl, rfl⟩ := member
      exact ⟨inside, table.1, table.2, small⟩
    · rw [if_neg table] at member
      cases member
  · rintro ⟨inside, type, alloc, small⟩
    exact ⟨i, inside, by simp [if_pos (And.intro type alloc), small]⟩

/-- The symbols fit the memory. -/
theorem symcount_small (base : BitVec 32) (memory : Memory 32) :
    16 * (moduleOf ia32 base memory).symcount.toNat ≤ 2 ^ 32 := by
  show 16 * ((symtabSection ia32 base memory).elim 0 _ : BitVec 32).toNat ≤ _
  cases symtabSection ia32 base memory with
  | none => exact Nat.zero_le _
  | some i =>
    have bound := (sectionSize ia32 base memory i).isLt
    show 16 * (sectionSize ia32 base memory i / 16).toNat ≤ _
    rw [BitVec.toNat_udiv, show (16 : BitVec 32).toNat = 16 from rfl]
    omega

variable (plain : Plain base memory) (unpatched : Unpatched base memory now)
include plain unpatched

/-- The number of sections is read as it was. -/
theorem read_shnum : loadAt 16 now (base + ia32.shnum) = loadAt 16 memory (base + ia32.shnum) :=
  unpatched.loadAt rfl fun entry member =>
    (plain.fromHeader entry member).part (show 48 + 16 / 8 ≤ 52 by decide) (by decide)

/-- The fields of a section header are read as they were. -/
theorem read_header {i : Nat} (inside : i < sections ia32 base memory) (bits field : Nat)
    (whole : 8 * (bits / 8) = bits) (small : field + bits / 8 ≤ 40) :
    loadAt bits now (header ia32 base memory i + .ofNat 32 field) =
      loadAt bits memory (header ia32 base memory i + .ofNat 32 field) :=
  unpatched.loadAt whole fun entry member =>
    (plain.fromSections entry member i inside).part small (by decide)

/-- The fields of the header of a section with entries are read as they were. -/
theorem read_target {i : Nat} (inside : i < sections ia32 base memory)
    (type : sectionType ia32 base memory i = shtRel) {field : Nat} (whole : 8 * (bits / 8) = bits)
    (small : field + bits / 8 ≤ 40) :
    loadAt bits now (targetHeader ia32 base memory i + .ofNat 32 field) =
      loadAt bits memory (targetHeader ia32 base memory i + .ofNat 32 field) :=
  unpatched.loadAt whole fun entry member =>
    (plain.fromTargets entry member i inside type).part small (by decide)

/-- The fields of an entry are read as they were. -/
theorem read_entry {entry : Entry} (inside : entry ∈ entries base memory) (field : Nat)
    (small : field + 4 ≤ 8) :
    loadAt 32 now (entryPlace base memory entry + .ofNat 32 field) =
      loadAt 32 memory (entryPlace base memory entry + .ofNat 32 field) := by
  obtain ⟨section_, type, _, last⟩ := mem_entries.mp inside
  have bound := (sectionSize ia32 base memory entry.1).isLt
  rw [entryPlace, element_eq, BitVec.add_assoc, ← BitVec.ofNat_add]
  refine unpatched.loadAt rfl fun other member =>
    (plain.fromEntries other member entry.1 section_ type).part ?_ (Nat.le_of_lt bound)
  rw [BitVec.toNat_ofNat, Nat.mod_eq_of_lt (by omega)]
  show 8 * entry.2 + field + 4 ≤ _
  omega

/-- The fields of a symbol are read as they were. -/
theorem read_symbol {entry : Entry} (inside : entry ∈ entries base memory) (bits field : Nat)
    (whole : 8 * (bits / 8) = bits) (small : field + bits / 8 ≤ 16) :
    loadAt bits now (symbolPlace base memory entry + .ofNat 32 field) =
      loadAt bits memory (symbolPlace base memory entry + .ofNat 32 field) := by
  have inRange := BitVec.lt_def.mp (plain.inRange entry inside)
  have count := symcount_small base memory
  rw [symbolPlace, element_eq, BitVec.add_assoc, ← BitVec.ofNat_add]
  refine unpatched.loadAt whole fun other member =>
    (plain.fromSymbols other member).part ?_ (by omega)
  show 16 * _ + field + bits / 8 ≤ _
  omega

/-- The address of the symbol of an entry is found as it was. -/
theorem read_address {entry : Entry} (inside : entry ∈ entries base memory)
    (findKernelSymbol : List (BitVec 8) → BitVec 32) :
    (symbolOf ia32 (moduleOf ia32 base memory) (shdr ia32 base memory)
      (entrySymIdx base memory entry)
        now).address findKernelSymbol false base =
      (entrySymbol base memory entry).address findKernelSymbol false base := by
  have name := read_symbol plain unpatched inside 32 0 rfl (by decide)
  have shndx := read_symbol plain unpatched inside 16 14 rfl (by decide)
  have value := read_symbol plain unpatched inside 32 4 rfl (by decide)
  have shnum := read_shnum plain unpatched
  rw [BitVec.add_zero] at name
  rcases plain.known entry inside with ⟨undef, _⟩ | ⟨defined, below, _⟩
  · have string : (symbolOf ia32 (moduleOf ia32 base memory) (shdr ia32 base memory)
        (entrySymIdx base memory entry) now).name = (entrySymbol base memory entry).name := by
      simp only [symbolOf, entrySymbol, BitVec.setWidth_eq]
      rw [← symbolPlace, name]
      refine stringFrom_congr fun index small => unpatched _ fun other member => ?_
      refine (plain.fromStrings other member entry inside undef).symm _ (within_add ?_)
      rw [entrySymbol, symbolOf]
      simp only [BitVec.setWidth_eq]
      exact Nat.lt_succ_of_le small
    have undefNow : (symbolOf ia32 (moduleOf ia32 base memory) (shdr ia32 base memory)
        (entrySymIdx base memory entry) now).shndx = shnUndef := shndx.trans undef
    rw [Symbol.address, Symbol.address, if_pos undefNow, if_pos undef, string]
  · have shndxNow : (symbolOf ia32 (moduleOf ia32 base memory) (shdr ia32 base memory)
        (entrySymIdx base memory entry) now).shndx = (entrySymbol base memory entry).shndx := shndx
    have shnumNow : (symbolOf ia32 (moduleOf ia32 base memory) (shdr ia32 base memory)
        (entrySymIdx base memory entry) now).shnum = (entrySymbol base memory entry).shnum := shnum
    have inTable : (entrySymbol base memory entry).shndx.toNat < sections ia32 base memory :=
      BitVec.lt_def.mp below
    have place : element (shdr ia32 base memory) ia32.sectionBytes
        ((entrySymbol base memory entry).shndx.setWidth 32) =
          header ia32 base memory (entrySymbol base memory entry).shndx.toNat := by
      rw [header, ← BitVec.ofNat_toNat]
    have sectionNow : (symbolOf ia32 (moduleOf ia32 base memory) (shdr ia32 base memory)
        (entrySymIdx base memory entry) now).sectionAddress base =
          (entrySymbol base memory entry).sectionAddress base := by
      have flags := read_header plain unpatched inTable 32 8 rfl (by decide)
      have offset := read_header plain unpatched inTable 32 16 rfl (by decide)
      rw [← place] at flags offset
      have valueNow : (symbolOf ia32 (moduleOf ia32 base memory) (shdr ia32 base memory)
          (entrySymIdx base memory entry) now).value = (entrySymbol base memory entry).value :=
              value
      rw [Symbol.sectionAddress, symbolOf_flags, symbolOf_sectionOffset, shndxNow, valueNow]
      exact (congrArg₂ (fun flags offset => if flags &&& shfAlloc 32 ≠ 0 then
        base + offset + (entrySymbol base memory entry).value
          else (entrySymbol base memory entry).value) flags offset)
    rw [Symbol.address, Symbol.address, shndxNow, shnumNow, if_neg defined, if_neg defined,
      if_pos below, if_pos below, sectionNow]

end Reads

/-! ## The run through the entries -/

section Run

variable (env : Environment 32) (base : BitVec 32) (memory : Memory 32)

/-- The address of the symbol of an entry, unless `FindKernelSymbol` does not know it. -/
def entryAddress (entry : Entry) : Option (BitVec 32) :=
  (entrySymbol base memory entry).address env.findKernelSymbol false base

/-- The memory after the word of an entry was patched. -/
def patchEntry (entry : Entry) (address : BitVec 32) (now : Memory 32) : Memory 32 :=
  storeAt now (patchPlace base memory entry)
    (relocated (entryType base memory entry) (patchPlace base memory entry) address
      (loadAt 32 now (patchPlace base memory entry)))

/-- What the loops do with an entry. -/
def act (entry : Entry) (now : Memory 32) : Option (Memory 32) :=
  (entryAddress env base memory entry).map (patchEntry base memory entry · now)

variable {env base memory} {now : Memory 32}

/-- The loops patch only words to be patched. -/
theorem act_unpatched {entry : Entry} (member : entry ∈ entries base memory) {next : Memory 32}
    (unpatched : Unpatched base memory now) (taken : act env base memory entry now = some next) :
    Unpatched base memory next := by
  obtain ⟨address, _, rfl⟩ := Option.map_eq_some_iff.mp taken
  exact unpatched.patch member _

variable (plain : Plain base memory) (unpatched : Unpatched base memory now)
include plain unpatched

/-- The body of the loop over the entries of a section. -/
theorem relEntry_act {i r : Nat} (member : (i, r) ∈ entries base memory) :
    relEntry env.unbounded (moduleOf ia32 base memory) (shdr ia32 base memory)
        (base + loadAt 32 memory (targetHeader ia32 base memory i + ia32.shOffset))
        (sectionStart ia32 base memory i) r now =
      running [act env base memory (i, r)] now := by
  have info : loadAt 32 now (element (sectionStart ia32 base memory i) ia32.relBytes (.ofNat 32 r) +
      ia32.rInfo) = entryInfo base memory (i, r) :=
    read_entry plain unpatched member _ (by decide)
  have offset := read_entry plain unpatched member 0 (by decide)
  rw [BitVec.add_zero] at offset
  have place : base + loadAt 32 memory (targetHeader ia32 base memory i + ia32.shOffset) +
      loadAt 32 now (element (sectionStart ia32 base memory i) ia32.relBytes (.ofNat 32 r)) =
        patchPlace base memory (i, r) := congrArg _ offset
  have common : Common (entryInfo base memory (i, r) &&& 0xFF) := by
    rcases plain.types _ member with one | two | four
    · exact .inl one
    · exact .inr (.inl two)
    · exact .inr (.inr (.inl four))
  have address : (symbolOf ia32 (moduleOf ia32 base memory) (shdr ia32 base memory)
      (entryInfo base memory (i, r) >>> 8) now).address env.findKernelSymbol false
        (moduleOf ia32 base memory).base = entryAddress env base memory (i, r) :=
    read_address plain unpatched member env.findKernelSymbol
  rw [relEntry_common info place common, address, running, runAll, act]
  cases entryAddress env base memory (i, r) <;> rfl

/-- The loop over the entries of a section. -/
theorem relEntries_act {i : Nat} (inside : i < sections ia32 base memory)
    (table : sectionType ia32 base memory i = shtRel) (alloc : targetAlloc ia32 base memory i) :
    loop (moreEntries ((sectionSize ia32 base memory i).toNat / 8))
        (relEntry env.unbounded (moduleOf ia32 base memory) (shdr ia32 base memory)
          (base + loadAt 32 memory (targetHeader ia32 base memory i + ia32.shOffset))
          (sectionStart ia32 base memory i)) ((sectionSize ia32 base memory i).toNat / 8) 0 now =
      running ((sectionEntries base memory i).map (act env base memory)) now := by
  have member : ∀ r < (sectionSize ia32 base memory i).toNat / 8, (i, r) ∈ entries base memory :=
    fun r small => mem_entries.mpr ⟨inside, table, alloc, small⟩
  have tests : ∀ r state, Unpatched base memory state →
      moreEntries ((sectionSize ia32 base memory i).toNat / 8) r state =
        .ok (decide (r < (sectionSize ia32 base memory i).toNat / 8)) state := fun _ _ _ => rfl
  have bodies : ∀ r < (sectionSize ia32 base memory i).toNat / 8, ∀ state,
      Unpatched base memory state →
      relEntry env.unbounded (moduleOf ia32 base memory) (shdr ia32 base memory)
          (base + loadAt 32 memory (targetHeader ia32 base memory i + ia32.shOffset))
          (sectionStart ia32 base memory i) r state =
        running ((fun r => [act env base memory (i, r)]) r) state := fun r small state good =>
    relEntry_act plain good (member r small)
  have keep : ∀ r < (sectionSize ia32 base memory i).toNat / 8,
      ∀ step ∈ (fun r => [act env base memory (i, r)]) r, ∀ state next,
        Unpatched base memory state → step state = some next → Unpatched base memory next := by
    intro r small step here state next good taken
    obtain rfl := List.mem_singleton.mp here
    exact act_unpatched (member r small) good taken
  rw [loop_runAll tests bodies keep (Nat.zero_le _) (by omega) unpatched, sectionEntries,
    if_pos ⟨table, alloc⟩, List.map_map, List.range_eq_range', Nat.sub_zero, List.map_eq_flatMap]
  rfl

/-- The body of the loop over the sections. -/
theorem relocateSection_act {i : Nat} (inside : i < sections ia32 base memory) :
    relocateSection ia32 env.unbounded (relaEntry env.unbounded) (relEntry env.unbounded)
        (moduleOf ia32 base memory) (shdr ia32 base memory) i now =
      running ((sectionEntries base memory i).map (act env base memory)) now := by
  have type : loadAt 32 now (header ia32 base memory i + 4) = sectionType ia32 base memory i :=
    read_header plain unpatched inside _ _ rfl (by decide)
  have info : loadAt 32 now (header ia32 base memory i + ia32.shInfo) =
      loadAt 32 memory (header ia32 base memory i + ia32.shInfo) :=
    read_header plain unpatched inside _ _ rfl (by decide)
  have offset : base + loadAt 32 now (header ia32 base memory i + ia32.shOffset) =
      sectionStart ia32 base memory i :=
    congrArg _ (read_header plain unpatched inside _ _ rfl (by decide))
  have size : loadAt 32 now (header ia32 base memory i + ia32.shSize) =
      sectionSize ia32 base memory i :=
    read_header plain unpatched inside _ _ rfl (by decide)
  rw [header] at type info offset size
  have notRela := plain.noRela i inside
  simp only [relocateSection, load_unbounded_bind, type]
  by_cases table : sectionType ia32 base memory i = shtRel
  · have flags : loadAt 32 now (targetHeader ia32 base memory i + 8) =
        loadAt 32 memory (targetHeader ia32 base memory i + 8) :=
      read_target plain unpatched inside table rfl (by decide)
    have targetOffset : loadAt 32 now (targetHeader ia32 base memory i + ia32.shOffset) =
        loadAt 32 memory (targetHeader ia32 base memory i + ia32.shOffset) :=
      read_target plain unpatched inside table rfl (by decide)
    rw [if_neg (by simp [table]), load_unbounded_bind, info, ← header,
      ← targetHeader, load_unbounded_bind, flags]
    by_cases alloc : targetAlloc ia32 base memory i
    · have count : countOf (sectionSize ia32 base memory i) ia32.relBytes =
          (sectionSize ia32 base memory i).toNat / 8 :=
        countOf_eq (by decide)
          (by have := (sectionSize ia32 base memory i).isLt; show _ / 8 < _; omega)
      rw [if_neg alloc, load_unbounded_bind, targetOffset, load_unbounded_bind, load_unbounded_bind,
        if_neg notRela, header, size, show (moduleOf ia32 base memory).base = base from rfl,
        offset, count]
      exact relEntries_act plain unpatched inside table alloc
    · rw [if_pos (not_not.mp alloc), sectionEntries, if_neg fun entries => alloc entries.2]
      rfl
  · rw [if_pos ⟨table, notRela⟩, sectionEntries, if_neg fun entries => table entries.1]
    rfl

omit unpatched in
/-- `RelocateModule` runs through the entries of the module as it came. -/
theorem relocateModule_act :
    relocateModule env.unbounded base memory =
      .ok ((runAll ((entries base memory).map (act env base memory)) memory).1,
        moduleOf ia32 base memory)
        (runAll ((entries base memory).map (act env base memory)) memory).2 := by
  have few : sections ia32 base memory ≤ 65536 := Nat.le_of_lt (loadAt 16 memory _).isLt
  have tests : ∀ i state, Unpatched base memory state →
      moreSections ia32 env.unbounded base i state =
        .ok (decide (i < sections ia32 base memory)) state := by
    intro i state good
    rw [moreSections_unbounded, read_shnum plain good]
    rfl
  have keep : ∀ i < sections ia32 base memory,
      ∀ step ∈ (sectionEntries base memory i).map (act env base memory), ∀ state next,
        Unpatched base memory state → step state = some next → Unpatched base memory next := by
    intro i inside step here state next good taken
    obtain ⟨entry, member, rfl⟩ := List.mem_map.mp here
    exact act_unpatched (List.mem_flatMap.mpr ⟨i, List.mem_range.mpr inside, member⟩) good taken
  have run := loop_runAll tests
    (fun i inside state good => @relocateSection_act env _ _ _ plain good i inside) keep
    (Nat.zero_le _) (show sections ia32 base memory ≤ 0 + 65536 by omega)
    (Unpatched.start base memory)
  have all : (List.range' 0 (sections ia32 base memory - 0)).flatMap
      (fun i => (sectionEntries base memory i).map (act env base memory)) =
        (entries base memory).map (act env base memory) := by
    rw [entries, List.map_flatMap, List.range_eq_range', Nat.sub_zero]
  rw [all] at run
  rw [relocateModule, relocateModule_unbounded]
  exact bind_of_ok run

end Run

/-! ## The words -/

section Words

variable {env : Environment 32} {base : BitVec 32} {memory : Memory 32}

/-- `FindKernelSymbol` knows the symbol of an entry, if it is not defined in the module. -/
def Resolved (env : Environment 32) (base : BitVec 32) (memory : Memory 32)
    (entry : Entry) : Prop :=
  (entrySymbol base memory entry).shndx = shnUndef →
    env.findKernelSymbol (entrySymbol base memory entry).name ≠ 0

instance (env : Environment 32) (base : BitVec 32) (memory : Memory 32) (entry : Entry) :
    Decidable (Resolved env base memory entry) :=
  inferInstanceAs (Decidable (_ → _))

/-- The address of the symbol of an entry: that of a kernel symbol, or in the module. -/
def targetAddress (env : Environment 32) (base : BitVec 32) (memory : Memory 32) (entry : Entry) :
    BitVec 32 :=
  let symbol := entrySymbol base memory entry
  if symbol.shndx = shnUndef then env.findKernelSymbol symbol.name
  else base + symbol.sectionOffset + symbol.value

/-- The loops find the address of every symbol that is resolved. -/
theorem entryAddress_eq (plain : Plain base memory) {entry : Entry}
    (member : entry ∈ entries base memory) :
    (entryAddress env base memory entry ≠ none ↔ Resolved env base memory entry) ∧
      (Resolved env base memory entry →
        entryAddress env base memory entry = some (targetAddress env base memory entry)) := by
  simp only [entryAddress, Symbol.address, Resolved, targetAddress]
  rcases plain.known entry member with ⟨undef, named⟩ | ⟨defined, below, alloc⟩
  · by_cases unknown : env.findKernelSymbol (entrySymbol base memory entry).name = 0 <;>
      simp [undef, named, unknown]
  · have place : (entrySymbol base memory entry).sectionAddress base =
        base + (entrySymbol base memory entry).sectionOffset +
            (entrySymbol base memory entry).value :=
      if_pos alloc
    simp [defined, below, place]

/-- The patch of an entry whose symbol is resolved. -/
def patchOf (env : Environment 32) (base : BitVec 32) (memory : Memory 32) (entry : Entry) :
    Patch 32 32 where
  place := patchPlace base memory entry
  change := relocated (entryType base memory entry) (patchPlace base memory entry)
    ((entryAddress env base memory entry).getD 0)

/-- The patches lie apart. -/
theorem patchOf_apart (plain : Plain base memory) :
    ((entries base memory).map (patchOf env base memory)).Pairwise fun patch later =>
      Apart patch.place (32 / 8) later.place (32 / 8) := by
  rw [List.pairwise_map]
  exact plain.apart

/-- When all symbols are resolved the loops make all the patches. -/
theorem runAll_act
    (all : ∀ entry ∈ entries base memory, entryAddress env base memory entry ≠ none) :
    (runAll ((entries base memory).map (act env base memory)) memory).2 =
      patchAll ((entries base memory).map (patchOf env base memory)) memory := by
  rw [patchAll, List.foldl_map]
  exact @runAll_effects _ _ _ _ _ (patchEntry base memory) _ _ all

/-- **Relocation.** In a plain module `RelocateModule` returns 0 exactly when all undefined symbols
are resolved; then the word of each entry is `S + A` or `S + A - P`, and every other byte is as it
was. -/
theorem relocated_words (plain : Plain base memory) : ∃ done after,
    relocateModule env.unbounded base memory = .ok (done, moduleOf ia32 base memory) after ∧
      (done = true ↔ ∀ entry ∈ entries base memory, Resolved env base memory entry) ∧
      (done = true →
        (∀ entry ∈ entries base memory,
          loadAt 32 after (patchPlace base memory entry) =
            targetAddress env base memory entry +
              loadAt 32 memory (patchPlace base memory entry) -
              (if entryType base memory entry = 1 then 0 else patchPlace base memory entry)) ∧
        ∀ place, (∀ entry ∈ entries base memory, ¬ Within (patchPlace base memory entry) 4 place) →
          after place = memory place) := by
  have known : (runAll ((entries base memory).map (act env base memory)) memory).1 = true ↔
      ∀ entry ∈ entries base memory, Resolved env base memory entry :=
    (@runAll_optional _ _ _ _ _ (patchEntry base memory) _).trans
      (forall₂_congr fun entry member => (entryAddress_eq plain member).1)
  refine ⟨_, _, relocateModule_act plain, known, fun done => ?_⟩
  have resolved := known.mp done
  rw [runAll_act fun entry member => (entryAddress_eq plain member).1.mpr (resolved entry member)]
  refine ⟨fun entry member => ?_, fun place outside => patchAll_outside fun patch member => ?_⟩
  · have inside : patchOf env base memory entry ∈
        (entries base memory).map (patchOf env base memory) := List.mem_map_of_mem member
    have address := (entryAddress_eq plain member).2 (resolved entry member)
    have word := @loadAt_patchAll _ _ _ memory (by decide) rfl (patchOf_apart plain) _ inside
    simp only [patchOf, address, Option.getD_some] at word
    refine word.trans ?_
    rcases plain.types entry member with one | two | four
    · simp [relocated, one]
    · simp [relocated, two]
    · simp [relocated, four]
  · obtain ⟨entry, inside, rfl⟩ := List.mem_map.mp member
    exact outside entry inside

end Words

/-- A module with one entry, for the undefined symbol `k` and the second word of its code. -/
def sampleImage : Memory 32 := memoryOf
  [(0x1000, 0x464C457F), (0x1010, 1), (0x1020, 0x34), (0x1030, 5),
    -- The headers of the code, the symbols, the strings and the entry.
    (0x1060, 1), (0x1064, 2), (0x106C, 0x100), (0x1070, 8),
    (0x1088, 2), (0x1094, 0x120), (0x1098, 0x30), (0x109C, 3),
    (0x10B0, 3), (0x10BC, 0x150), (0x10C0, 8),
    (0x10D8, 9), (0x10E4, 0x160), (0x10E8, 8), (0x10EC, 2), (0x10F0, 1),
    -- The code, the symbols `k` and `Init`, their names and the entry.
    (0x1104, 0xFC), (0x1130, 1), (0x1140, 3), (0x114C, 0x10000),
    (0x1150, 0x49006B00), (0x1154, 0x74696E), (0x1160, 4), (0x1164, 0x102)]

/-- A kernel with the symbol `k`. -/
def kernelOf (address : BitVec 32) : Environment 32 :=
  { sampleEnv with findKernelSymbol := fun name => if name = [0x6B] then address else 0 }

/-- The sample is plain. -/
theorem sampleImage_plain : Plain 0x1000 sampleImage := by
  have only : entries 0x1000 sampleImage = [(4, 0)] := by decide +kernel
  have each : ∀ {property : Entry → Prop}, property (4, 0) →
      ∀ entry ∈ entries 0x1000 sampleImage, property entry := by
    intro property holds entry member
    rw [only] at member
    exact List.mem_singleton.mp member ▸ holds
  exact {
    noRela := by decide +kernel
    types := each (by decide +kernel)
    inRange := each (by decide +kernel)
    known := each (by decide +kernel)
    apart := by
      rw [only]
      exact List.pairwise_singleton ..
    fromHeader := each (Separate.apart (by decide +kernel))
    fromSections := each fun i inside => Separate.apart
      ((by decide +kernel : ∀ i < sections ia32 0x1000 sampleImage, Separate
        (patchPlace 0x1000 sampleImage (4, 0)) 4 (header ia32 0x1000 sampleImage i) 40) i inside)
    fromTargets := each fun i inside type => Separate.apart
      ((by decide +kernel : ∀ i < sections ia32 0x1000 sampleImage,
        sectionType ia32 0x1000 sampleImage i = shtRel → Separate
          (patchPlace 0x1000 sampleImage (4, 0)) 4 (targetHeader ia32 0x1000 sampleImage i) 40)
            i inside type)
    fromSymbols := each (Separate.apart (by decide +kernel))
    fromStrings := each (each fun _ => Separate.apart (by decide +kernel))
    fromEntries := each fun i inside type => Separate.apart
      ((by decide +kernel : ∀ i < sections ia32 0x1000 sampleImage,
        sectionType ia32 0x1000 sampleImage i = shtRel → Separate
          (patchPlace 0x1000 sampleImage (4, 0)) 4 (sectionStart ia32 0x1000 sampleImage i)
            (sectionSize ia32 0x1000 sampleImage i).toNat) i inside type) }

/-- The word of the sample is relocated. -/
theorem relocated_words_sample : ∃ after,
    relocateModule (kernelOf 0x5000).unbounded 0x1000 sampleImage =
      .ok (true, moduleOf ia32 0x1000 sampleImage) after ∧ loadAt 32 after 0x1104 = 0x3FF8 := by
  obtain ⟨done, after, returned, known, words⟩ :=
    @relocated_words (kernelOf 0x5000) _ _ sampleImage_plain
  have only : entries 0x1000 sampleImage = [(4, 0)] := by decide +kernel
  obtain rfl : done = true := known.mpr fun entry member => by
    rw [only] at member
    exact List.mem_singleton.mp member ▸ (by decide +kernel)
  refine ⟨after, returned, ?_⟩
  have word := (words rfl).1 (4, 0) (by rw [only]; exact List.mem_singleton_self _)
  exact word.trans (by decide +kernel)

end Unarddeg.Elf.Ia32
