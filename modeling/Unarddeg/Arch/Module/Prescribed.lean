import Unarddeg.Arch.Module.Visits

/-!
# What the types of relocations prescribe

The 64-bit target. `prescription` says what an entry asks for; an entry that asks for something the
loader does not know has none. `LoadModule` goes on after such an entry, and it misses some others
that it knows (`applied_iff`).
-/

namespace Unarddeg.Elf.Amd64

open Library

/-! ## Prescriptions -/

/-- What is to be done at the place of an entry. -/
inductive Prescription
  /-- Nothing. -/
  | nothing
  /-- The 64-bit word gets a value. -/
  | word (value : BitVec 64)
  /-- The signed 32-bit word gets a value. -/
  | half (value : BitVec 64)

/-- A memory is what a prescription makes of another one. -/
def Prescription.Done (place : BitVec 64) (before after : Memory 64) : Prescription → Prop
  | nothing => after = before
  | word value => after = storeAt before place value
  | half value =>
    after = storeAt before place (value.setWidth 32) ∧ (value.setWidth 32).signExtend 64 = value

/-- What a type prescribes: `S + A`, `S + A - P`, `S` or `B + A`. -/
def prescription (type : BitVec 32) (base place addend : BitVec 64) (symbol : Option (BitVec 64)) :
    Option Prescription :=
  match type with
  | 0 => some .nothing
  | 1 => symbol.map fun value => .word (value + addend)
  | 2 | 4 => symbol.map fun value => .half (value + addend - place)
  | 6 | 7 => symbol.map .word
  | 8 => some (.word (base + addend))
  | _ => none

/-- The value of a symbol: that of the kernel symbol of its name if it is undefined, else its own
one. Other symbols have none. -/
def symbolValue (findKernelSymbol : List (BitVec 8) → BitVec 64) (base : BitVec 64)
    (symbol : Symbol 64) : Option (BitVec 64) :=
  if symbol.shndx = shnUndef then
    if symbol.name = [] ∨ findKernelSymbol symbol.name = 0 then none
    else some (findKernelSymbol symbol.name)
  else if symbol.shndx < symbol.shnum then some (symbol.sectionAddress base)
  else if symbol.shndx = shnAbs then some symbol.value
  else none

/-- The value of the symbol with an index. Index 0 stands for no symbol. -/
def indexValue (env : Environment 64) (mod : LoadedModule 64) (shdr : BitVec 64)
    (symIdx : BitVec 32) (memory : Memory 64) : Option (BitVec 64) :=
  if symIdx = 0 then some 0
  else if symIdx < mod.symcount then
    symbolValue env.findKernelSymbol mod.base (symbolOf amd64 mod shdr symIdx memory)
  else none

section Entries

variable (env : Environment 64) (mod : LoadedModule 64) (shdr : BitVec 64) (table : Table 64)
  (r : Nat) (now : Memory 64)

/-- The place of an entry. -/
def entryPlace : BitVec 64 := element table.start (table.entryBytes amd64) (.ofNat 64 r)

/-- The type of an entry. -/
def entryType : BitVec 32 := (loadAt 64 now (entryPlace table r + amd64.rInfo)).setWidth 32

/-- The index of its symbol. -/
def entrySymIdx : BitVec 32 :=
  (loadAt 64 now (entryPlace table r + amd64.rInfo) >>> 32).setWidth 32

/-- The place of the word that it is for. -/
def patchPlace : BitVec 64 := table.targetBase + loadAt 64 now (entryPlace table r)

/-- Its addend: a field of the entry, or the word that it is for. -/
def entryAddend : BitVec 64 :=
  if table.rela then loadAt 64 now (entryPlace table r + amd64.rAddend)
  else if entryType table r now = 2 ∨ entryType table r now = 4 then
    (loadAt 32 now (patchPlace table r now)).signExtend 64
  else loadAt 64 now (patchPlace table r now)

/-- Its symbol. -/
def entrySymbol : Symbol 64 := symbolOf amd64 mod shdr (entrySymIdx table r now) now

/-- What an entry prescribes. -/
def entryPrescription : Option Prescription :=
  prescription (entryType table r now) mod.base (patchPlace table r now) (entryAddend table r now)
    (indexValue env mod shdr (entrySymIdx table r now) now)

/-- An entry has been applied as it prescribes. -/
def Applied : Prop :=
  ∃ prescribed after, entryPrescription env mod shdr table r now = some prescribed ∧
    table.body (relaEntry env.unbounded) (relEntry env.unbounded) mod shdr r now = .ok true after ∧
      prescribed.Done (patchPlace table r now) now after

/-- The types that prescribe something about a symbol. -/
def ofSymbol (type : BitVec 32) : Prop := type = 1 ∨ type = 2 ∨ type = 4 ∨ type = 6 ∨ type = 7

instance (type : BitVec 32) : Decidable (ofSymbol type) := inferInstanceAs (Decidable (_ ∨ _))

/-- An entry whose type and symbol the loader knows. -/
def Supported : Prop :=
  entryType table r now = 0 ∨ entryType table r now = 8 ∨
    (ofSymbol (entryType table r now) ∧
      (entrySymIdx table r now = 0 ∨
        (entrySymIdx table r now < mod.symcount ∧
          let symbol := entrySymbol mod shdr table r now
          (symbol.shndx = shnUndef ∧ symbol.name ≠ []) ∨
            (symbol.shndx ≠ shnUndef ∧ (symbol.shndx < symbol.shnum ∨ symbol.shndx = shnAbs)))))

/-- An absolute symbol of an entry without addend, which its loop does not look for. -/
def Missed : Prop :=
  table.rela = false ∧ entrySymIdx table r now ≠ 0 ∧
    (entrySymbol mod shdr table r now).shndx = shnAbs ∧
      (entrySymbol mod shdr table r now).shnum ≤ shnAbs

/-- What the loader does with an entry is what is prescribed: it does not know the type 8 without
addends, nor absolute symbols there, and it does not look whether a value fits 32 bits. -/
structure Exact : Prop where
  /-- The type 8. -/
  relative : entryType table r now = 8 → table.rela = true ∨ mod.base = 0
  /-- The types of a 64-bit word. -/
  words : entryType table r now = 1 ∨ entryType table r now = 6 ∨ entryType table r now = 7 →
    Missed mod shdr table r now → (entrySymbol mod shdr table r now).value = 0
  /-- The types of a 32-bit word. -/
  halves : entryType table r now = 2 ∨ entryType table r now = 4 →
    Missed mod shdr table r now → (entrySymbol mod shdr table r now).value.setWidth 32 = 0
  /-- The value fits. -/
  fits : entryType table r now = 2 ∨ entryType table r now = 4 →
    ∀ value, indexValue env mod shdr (entrySymIdx table r now) now = some value →
      let sum := value + entryAddend table r now - patchPlace table r now
      (sum.setWidth 32).signExtend 64 = sum

end Entries

/-! ## What the loops do -/

section Bodies

variable {env : Environment 64} {mod : LoadedModule 64} {shdr : BitVec 64} {table : Table 64}
  {r : Nat} {now : Memory 64}

/-- The addend that the loops use. -/
def usedAddend (table : Table 64) (r : Nat) (now : Memory 64) : BitVec 64 :=
  if table.rela then loadAt 64 now (entryPlace table r + amd64.rAddend)
  else loadAt 64 now (patchPlace table r now)

/-- The address of the symbol that the loops use. -/
def usedAddress (env : Environment 64) (mod : LoadedModule 64) (shdr : BitVec 64)
    (table : Table 64) (r : Nat) (now : Memory 64) : Option (BitVec 64) :=
  if 0 < entrySymIdx table r now ∧ entrySymIdx table r now < mod.symcount then
    (entrySymbol mod shdr table r now).address env.findKernelSymbol table.rela mod.base
  else some 0

/-- The memory after the `switch` of a loop. -/
def switched (rela : Bool) (base : BitVec 64) (type : BitVec 32) (place address addend : BitVec 64)
    (now : Memory 64) : Memory 64 :=
  match type with
  | 1 => storeAt now place (address + addend)
  | 2 | 4 => storeAt now place ((address + addend - place).setWidth 32)
  | 6 | 7 => storeAt now place address
  | 8 => if rela then storeAt now place (base + addend) else now
  | _ => now

/-- Other types store nothing, and 8 nothing without addends. -/
theorem switched_other {rela : Bool} {base place address addend : BitVec 64} {type : BitVec 32}
    (one : type ≠ 1) (two : type ≠ 2) (four : type ≠ 4) (six : type ≠ 6) (seven : type ≠ 7)
    (eight : type = 8 → rela = false) :
    switched rela base type place address addend now = now := by
  unfold switched
  split
  case h_6 => rw [eight rfl, if_neg Bool.false_ne_true]
  all_goals first | contradiction | rfl

/-- The `switch` of the loop over entries with addends. -/
theorem relaSwitch_unbounded {entry place address : BitVec 64} {type : BitVec 32} :
    relaSwitch env.unbounded mod entry type place address now =
      .ok () (switched true mod.base type place address
        (loadAt 64 now (entry + amd64.rAddend)) now) := by
  unfold relaSwitch
  split
  case h_7 one two four six seven eight =>
    rw [switched_other one two four six seven fun same => (eight same).elim]
    rfl
  all_goals rfl

/-- The `switch` of the loop over entries without addends. -/
theorem relSwitch_unbounded {place address addend base : BitVec 64} {type : BitVec 32} :
    relSwitch env.unbounded type place address addend now =
      .ok () (switched false base type place address addend now) := by
  unfold relSwitch
  split
  case h_6 one two four six seven =>
    -- The loop has no case for the type 8.
    rw [switched_other one two four six seven fun _ => rfl]
    rfl
  all_goals rfl

/-- The body of the loop over entries with addends. -/
theorem relaEntry_unbounded (rela : table.rela = true) :
    relaEntry env.unbounded mod shdr table.targetBase table.start r now =
      match usedAddress env mod shdr table r now with
      | none => .ok false now
      | some address => .ok true (switched true mod.base (entryType table r now)
          (patchPlace table r now) address (usedAddend table r now) now) := by
  have place : element table.start amd64.relaBytes (.ofNat 64 r) = entryPlace table r := by
    simp [entryPlace, Table.entryBytes, rela]
  have addend : usedAddend table r now = loadAt 64 now (entryPlace table r + amd64.rAddend) :=
    if_pos rela
  have guarded : guardedAddress amd64 env.unbounded true mod shdr (entrySymIdx table r now) now =
      .ok (usedAddress env mod shdr table r now) now := by
    rw [guardedAddress_unbounded, usedAddress, rela, entrySymbol]
  simp only [relaEntry, load_unbounded_bind, place]
  rw [← entryType, ← entrySymIdx, ← patchPlace]
  by_cases relative : entryType table r now = 8 ∧ entrySymIdx table r now = 0
  · -- Index 0 is not looked up.
    have zero : usedAddress env mod shdr table r now = some 0 := by
      rw [usedAddress, relative.2]
      exact if_neg fun inside => absurd inside.1 (by decide)
    rw [if_pos relative, zero, relative.1, addend, load_unbounded_bind, store_unbounded_bind]
    rfl
  · rw [if_neg relative, bind_of_ok guarded]
    cases usedAddress env mod shdr table r now with
    | none => rfl
    | some address =>
      rw [addend]
      exact bind_of_ok relaSwitch_unbounded

/-- The body of the loop over entries without addends. -/
theorem relEntry_unbounded (rela : table.rela = false) :
    relEntry env.unbounded mod shdr table.targetBase table.start r now =
      match usedAddress env mod shdr table r now with
      | none => .ok false now
      | some address => .ok true (switched false mod.base (entryType table r now)
          (patchPlace table r now) address (usedAddend table r now) now) := by
  have place : element table.start amd64.relBytes (.ofNat 64 r) = entryPlace table r := by
    simp [entryPlace, Table.entryBytes, rela]
  have addend : usedAddend table r now = loadAt 64 now (patchPlace table r now) := by
    simp [usedAddend, rela]
  have guarded : guardedAddress amd64 env.unbounded false mod shdr (entrySymIdx table r now) now =
      .ok (usedAddress env mod shdr table r now) now := by
    rw [guardedAddress_unbounded, usedAddress, rela, entrySymbol]
  simp only [relEntry, load_unbounded_bind, place]
  rw [← entryType, ← entrySymIdx, ← patchPlace, bind_of_ok guarded, ← addend]
  cases usedAddress env mod shdr table r now with
  | none => rfl
  | some address => exact bind_of_ok relSwitch_unbounded

/-- Without bounds the body of a loop does what its `switch` says with the address of the symbol,
or ends the relocation. -/
theorem body_unbounded :
    table.body (relaEntry env.unbounded) (relEntry env.unbounded) mod shdr r now =
      match usedAddress env mod shdr table r now with
      | none => .ok false now
      | some address => .ok true (switched table.rela mod.base (entryType table r now)
          (patchPlace table r now) address (usedAddend table r now) now) := by
  cases rela : table.rela with
  | true => rw [Table.body, if_pos rela, relaEntry_unbounded rela]
  | false => rw [Table.body, if_neg (by simp [rela]), relEntry_unbounded rela]

end Bodies

/-! ## What they miss -/

section Symbols

variable {env : Environment 64} {mod : LoadedModule 64} {shdr : BitVec 64} {table : Table 64}
  {r : Nat} {now : Memory 64} {address value : BitVec 64}

/-- A symbol that the loops go on with has a value if it is named, defined in a section or
absolute. -/
theorem symbolValue_known {symbol : Symbol 64} {find : List (BitVec 8) → BitVec 64}
    {absolute : Bool}
    {base : BitVec 64} (used : symbol.address find absolute base = some address) :
    symbolValue find base symbol ≠ none ↔ (symbol.shndx = shnUndef ∧ symbol.name ≠ []) ∨
      (symbol.shndx ≠ shnUndef ∧ (symbol.shndx < symbol.shnum ∨ symbol.shndx = shnAbs)) := by
  rw [symbolValue]
  by_cases undef : symbol.shndx = shnUndef
  · by_cases empty : symbol.name = []
    · simp [undef, empty]
    · have resolved : find symbol.name ≠ 0 := by
        intro unknown
        rw [Symbol.address, if_pos undef, if_neg empty, if_pos unknown] at used
        cases used
      simpa [undef, empty] using resolved
  · rw [if_neg undef]
    by_cases inside : symbol.shndx < symbol.shnum
    · simp [undef, inside]
    · rw [if_neg inside]
      by_cases abs : symbol.shndx = shnAbs
      · rw [if_pos abs]
        exact ⟨fun _ => .inr ⟨undef, .inr abs⟩, fun _ => Option.some_ne_none _⟩
      · simp [undef, inside, abs]

/-- The loops use the value of a symbol, but 0 for an absolute one that they do not look for. -/
theorem symbolValue_used {symbol : Symbol 64} {find : List (BitVec 8) → BitVec 64} {absolute : Bool}
    {base : BitVec 64} (used : symbol.address find absolute base = some address)
    (valued : symbolValue find base symbol = some value) :
    if absolute = false ∧ symbol.shndx = shnAbs ∧ symbol.shnum ≤ shnAbs then
      address = 0 ∧ value = symbol.value
    else address = value := by
  rw [Symbol.address] at used
  rw [symbolValue] at valued
  by_cases undef : symbol.shndx = shnUndef
  · have notAbs : symbol.shndx ≠ shnAbs := fun abs => absurd (undef.symm.trans abs) (by decide)
    rw [if_neg fun missed => notAbs missed.2.1]
    rw [if_pos undef] at used valued
    by_cases missing : symbol.name = [] ∨ find symbol.name = 0
    · rw [if_pos missing] at valued
      cases valued
    · obtain ⟨named, known⟩ := not_or.mp missing
      rw [if_neg named, if_neg known] at used
      rw [if_neg missing] at valued
      exact Option.some.inj (used.symm.trans valued)
  · rw [if_neg undef] at used valued
    by_cases inside : symbol.shndx < symbol.shnum
    · rw [if_pos inside] at used valued
      rw [if_neg fun missed => BitVec.not_lt.mpr missed.2.2 (missed.2.1 ▸ inside)]
      exact Option.some.inj (used.symm.trans valued)
    · rw [if_neg inside] at used valued
      by_cases abs : symbol.shndx = shnAbs
      · rw [if_pos abs] at valued
        cases absolute with
        | true =>
          rw [if_pos ⟨rfl, abs⟩] at used
          rw [if_neg (by simp)]
          exact Option.some.inj (used.symm.trans valued)
        | false =>
          rw [if_neg (by simp)] at used
          rw [if_pos ⟨rfl, abs, abs ▸ BitVec.not_lt.mp inside⟩]
          exact ⟨(Option.some.inj used).symm, (Option.some.inj valued).symm⟩
      · rw [if_neg abs] at valued
        cases valued

/-- The symbol of an entry that the loops go on with has a value if it is one they know. -/
theorem indexValue_known (used : usedAddress env mod shdr table r now = some address) :
    indexValue env mod shdr (entrySymIdx table r now) now ≠ none ↔
      entrySymIdx table r now = 0 ∨ (entrySymIdx table r now < mod.symcount ∧
        let symbol := entrySymbol mod shdr table r now
        (symbol.shndx = shnUndef ∧ symbol.name ≠ []) ∨
          (symbol.shndx ≠ shnUndef ∧ (symbol.shndx < symbol.shnum ∨ symbol.shndx = shnAbs))) := by
  rw [indexValue]
  by_cases first : entrySymIdx table r now = 0
  · rw [if_pos first]
    exact ⟨fun _ => .inl first, fun _ => Option.some_ne_none _⟩
  · rw [if_neg first]
    by_cases inside : entrySymIdx table r now < mod.symcount
    · rw [usedAddress, if_pos ⟨(BitVec.pos_iff_ne_zero _).mpr first, inside⟩] at used
      rw [if_pos inside, ← entrySymbol, symbolValue_known used]
      simp only [first, inside, false_or, true_and]
    · rw [if_neg inside]
      simp only [first, inside, false_and, or_false, ne_eq, not_true_eq_false]

/-- The loops use the value of the symbol of an entry, but 0 for a missed one. -/
theorem indexValue_used (used : usedAddress env mod shdr table r now = some address)
    (valued : indexValue env mod shdr (entrySymIdx table r now) now = some value) :
    (Missed mod shdr table r now → address = 0 ∧ value = (entrySymbol mod shdr table r now).value) ∧
      (¬ Missed mod shdr table r now → address = value) := by
  rw [indexValue] at valued
  by_cases first : entrySymIdx table r now = 0
  · rw [if_pos first] at valued
    rw [usedAddress, if_neg fun inside => (BitVec.pos_iff_ne_zero _).mp inside.1 first] at used
    exact ⟨fun missed => absurd first missed.2.1, fun _ => Option.some.inj (used.symm.trans valued)⟩
  · rw [if_neg first] at valued
    by_cases inside : entrySymIdx table r now < mod.symcount
    · rw [if_pos inside] at valued
      rw [usedAddress, if_pos ⟨(BitVec.pos_iff_ne_zero _).mpr first, inside⟩] at used
      have agreed := symbolValue_used used valued
      by_cases missed : table.rela = false ∧ (entrySymbol mod shdr table r now).shndx = shnAbs ∧
          (entrySymbol mod shdr table r now).shnum ≤ shnAbs
      · rw [if_pos missed] at agreed
        exact ⟨fun _ => agreed, fun known => absurd ⟨missed.1, first, missed.2⟩ known⟩
      · rw [if_neg missed] at agreed
        exact ⟨fun other => absurd ⟨other.1, other.2.2⟩ missed, fun _ => agreed⟩
    · rw [if_neg inside] at valued
      cases valued

end Symbols

section Applied

variable {env : Environment 64} {mod : LoadedModule 64} {shdr : BitVec 64} {table : Table 64}
  {r : Nat} {now : Memory 64} {address : BitVec 64}

/-- A type has a prescription if it is a known one, and the symbol that it is about has a value. -/
theorem prescription_known {type : BitVec 32} {base place addend : BitVec 64}
    {symbol : Option (BitVec 64)} : prescription type base place addend symbol ≠ none ↔
      type = 0 ∨ type = 8 ∨ (ofSymbol type ∧ symbol ≠ none) := by
  unfold prescription ofSymbol
  split <;> simp_all

/-- An entry that the loops go on with has a prescription exactly when they know it. -/
theorem supported_iff (used : usedAddress env mod shdr table r now = some address) :
    entryPrescription env mod shdr table r now ≠ none ↔ Supported mod shdr table r now := by
  rw [entryPrescription, prescription_known, indexValue_known used]
  rfl

/-- What the loops did with an entry. -/
theorem applied_switched (used : usedAddress env mod shdr table r now = some address) :
    Applied env mod shdr table r now ↔ ∃ prescribed,
      entryPrescription env mod shdr table r now = some prescribed ∧
        prescribed.Done (patchPlace table r now) now
          (switched table.rela mod.base (entryType table r now) (patchPlace table r now) address
            (usedAddend table r now) now) := by
  rw [Applied, body_unbounded, used]
  constructor
  · rintro ⟨prescribed, after, known, returned, done⟩
    cases returned
    exact ⟨prescribed, known, done⟩
  · rintro ⟨prescribed, known, done⟩
    exact ⟨prescribed, _, known, rfl, done⟩

/-- The loops use the value of a symbol unless they miss it. -/
theorem used_eq_value {value : BitVec 64}
    (used : usedAddress env mod shdr table r now = some address)
    (valued : indexValue env mod shdr (entrySymIdx table r now) now = some value) (width : Nat) :
    address.setWidth width = value.setWidth width ↔ (Missed mod shdr table r now →
      (entrySymbol mod shdr table r now).value.setWidth width = 0) := by
  obtain ⟨missed, known⟩ := indexValue_used used valued
  by_cases absolute : Missed mod shdr table r now
  · obtain ⟨rfl, rfl⟩ := missed absolute
    rw [show (0 : BitVec 64).setWidth width = 0 from BitVec.setWidth_zero .., eq_comm]
    exact ⟨fun zero _ => zero, fun zero => zero absolute⟩
  · simp [known absolute, absolute]

/-- The addend of a 64-bit word is the one used. -/
theorem usedAddend_word (word : ¬ (entryType table r now = 2 ∨ entryType table r now = 4)) :
    entryAddend table r now = usedAddend table r now := by
  rw [entryAddend, if_neg word, usedAddend]

/-- The addend of a 32-bit word is the low half of the one used. -/
theorem usedAddend_half (half : entryType table r now = 2 ∨ entryType table r now = 4) :
    (usedAddend table r now).setWidth 32 = (entryAddend table r now).setWidth 32 := by
  rw [entryAddend, if_pos half, usedAddend]
  cases table.rela with
  | true => rfl
  | false =>
    show (little 64 _).setWidth 32 = BitVec.setWidth 32 ((little 32 _).signExtend 64)
    rw [little_setWidth (by decide)]
    refine BitVec.eq_of_getLsbD_eq fun place inside => ?_
    simp [BitVec.getElem_signExtend, inside, show place < 64 by omega]

/-- The type 8 is applied where its loop knows it. -/
theorem relative_exact (relative : entryType table r now = 8) :
    (switched table.rela mod.base 8 (patchPlace table r now) address (usedAddend table r now) now =
        storeAt now (patchPlace table r now) (mod.base + entryAddend table r now)) ↔
      (table.rela = true ∨ mod.base = 0) := by
  have addend : entryAddend table r now = usedAddend table r now :=
    usedAddend_word (by simp [relative])
  rw [addend]
  cases rela : table.rela with
  | true => exact iff_of_true rfl (.inl rfl)
  | false =>
    have word : usedAddend table r now = loadAt 64 now (patchPlace table r now) := by
      simp [usedAddend, rela]
    show now = _ ↔ _
    rw [eq_comm, storeAt_eq_self (by decide) rfl, ← word]
    simp

/-- The types of a 64-bit word. -/
theorem word_exact {value : BitVec 64} (used : usedAddress env mod shdr table r now = some address)
    (valued : indexValue env mod shdr (entrySymIdx table r now) now = some value)
    (word : entryType table r now = 1 ∨ entryType table r now = 6 ∨ entryType table r now = 7) :
    (∃ prescribed, prescription (entryType table r now) mod.base (patchPlace table r now)
        (entryAddend table r now) (some value) = some prescribed ∧
      prescribed.Done (patchPlace table r now) now (switched table.rela mod.base
        (entryType table r now) (patchPlace table r now) address (usedAddend table r now) now)) ↔
      (Missed mod shdr table r now → (entrySymbol mod shdr table r now).value = 0) := by
  have same := used_eq_value used valued 64
  simp only [BitVec.setWidth_eq] at same
  have addend : entryAddend table r now = usedAddend table r now := usedAddend_word (by
    rcases word with type | type | type <;> simp [type])
  rw [← same, addend]
  rcases word with one | six | seven
  · rw [one]
    show (∃ prescribed, some _ = some prescribed ∧ _) ↔ _
    simp only [Option.some.injEq, exists_eq_left']
    refine (storeAt_injective (by decide) rfl).trans ?_
    exact BitVec.add_left_inj _
  · rw [six]
    show (∃ prescribed, some _ = some prescribed ∧ _) ↔ _
    simp only [Option.some.injEq, exists_eq_left']
    exact storeAt_injective (by decide) rfl
  · rw [seven]
    show (∃ prescribed, some _ = some prescribed ∧ _) ↔ _
    simp only [Option.some.injEq, exists_eq_left']
    exact storeAt_injective (by decide) rfl

/-- The low half of the sum that the loops store is that of the sum that is prescribed unless they
miss the symbol. -/
theorem half_words {value : BitVec 64} (used : usedAddress env mod shdr table r now = some address)
    (valued : indexValue env mod shdr (entrySymIdx table r now) now = some value)
    (half : entryType table r now = 2 ∨ entryType table r now = 4) :
    (address + usedAddend table r now - patchPlace table r now).setWidth 32 =
        (value + entryAddend table r now - patchPlace table r now).setWidth 32 ↔
      (Missed mod shdr table r now → (entrySymbol mod shdr table r now).value.setWidth 32 = 0) := by
  have low : ∀ left right : BitVec 64, (left - right).setWidth 32 =
      left.setWidth 32 - right.setWidth 32 := fun left right => by
    apply BitVec.eq_of_toNat_eq
    have leftBound := left.isLt
    have rightBound := right.isLt
    rw [BitVec.toNat_setWidth, BitVec.toNat_sub, BitVec.toNat_sub, BitVec.toNat_setWidth,
      BitVec.toNat_setWidth]
    omega
  rw [← used_eq_value used valued 32, low, low, BitVec.setWidth_add _ _ (by decide),
    BitVec.setWidth_add _ _ (by decide), usedAddend_half half, BitVec.sub_eq_add_neg,
    BitVec.sub_eq_add_neg, BitVec.add_left_inj, BitVec.add_left_inj]

/-- The types of a 32-bit word. -/
theorem half_exact {value : BitVec 64} (used : usedAddress env mod shdr table r now = some address)
    (valued : indexValue env mod shdr (entrySymIdx table r now) now = some value)
    (half : entryType table r now = 2 ∨ entryType table r now = 4) :
    (∃ prescribed, prescription (entryType table r now) mod.base (patchPlace table r now)
        (entryAddend table r now) (some value) = some prescribed ∧
      prescribed.Done (patchPlace table r now) now (switched table.rela mod.base
        (entryType table r now) (patchPlace table r now) address (usedAddend table r now) now)) ↔
      (Missed mod shdr table r now →
        (entrySymbol mod shdr table r now).value.setWidth 32 = 0) ∧
        let sum := value + entryAddend table r now - patchPlace table r now
        (sum.setWidth 32).signExtend 64 = sum := by
  rw [← half_words used valued half]
  rcases half with two | four
  · rw [two]
    show (∃ prescribed, some _ = some prescribed ∧ _) ↔ _
    simp only [Option.some.injEq, exists_eq_left']
    exact and_congr (storeAt_injective (by decide) rfl) Iff.rfl
  · rw [four]
    show (∃ prescribed, some _ = some prescribed ∧ _) ↔ _
    simp only [Option.some.injEq, exists_eq_left']
    exact and_congr (storeAt_injective (by decide) rfl) Iff.rfl

/-- An entry that the loops know is applied exactly when what they do is prescribed. -/
theorem applied_exact (used : usedAddress env mod shdr table r now = some address)
    (supported : Supported mod shdr table r now) :
    Applied env mod shdr table r now ↔ Exact env mod shdr table r now := by
  rw [applied_switched used]
  rcases supported with zero | eight | ⟨known, symbol⟩
  · rw [entryPrescription, zero]
    exact iff_of_true ⟨.nothing, rfl, rfl⟩
      ⟨by simp [zero], by simp [zero], by simp [zero], by simp [zero]⟩
  · rw [entryPrescription, eight]
    show (∃ prescribed, some _ = some prescribed ∧ _) ↔ _
    simp only [Option.some.injEq, exists_eq_left']
    refine (relative_exact eight).trans ⟨fun exact => ?_, fun exact => exact.relative eight⟩
    exact ⟨fun _ => exact, by simp [eight], by simp [eight], by simp [eight]⟩
  · obtain ⟨value, valued⟩ := Option.ne_none_iff_exists'.mp ((indexValue_known used).mpr symbol)
    rw [entryPrescription, valued]
    by_cases half : entryType table r now = 2 ∨ entryType table r now = 4
    · refine (half_exact used valued half).trans ⟨fun exact => ?_, fun exact =>
        ⟨exact.halves half, exact.fits half value valued⟩⟩
      refine ⟨?_, ?_, fun _ => exact.1, fun _ other otherIs => ?_⟩
      · rcases half with type | type <;> simp [type]
      · rcases half with type | type <;> simp [type]
      · obtain rfl := Option.some.inj (valued.symm.trans otherIs)
        exact exact.2
    · have word : entryType table r now = 1 ∨ entryType table r now = 6 ∨
          entryType table r now = 7 := by
        rcases known with one | two | four | six | seven
        · exact .inl one
        · exact absurd (.inl two) half
        · exact absurd (.inr four) half
        · exact .inr (.inl six)
        · exact .inr (.inr seven)
      refine (word_exact used valued word).trans ⟨fun exact => ?_, fun exact => exact.words word⟩
      refine ⟨?_, fun _ => exact, fun other => absurd other half, fun other => absurd other half⟩
      rcases word with type | type | type <;> simp [type]

end Applied

/-! ## Loading -/

section Loading

variable (env : Environment 64) (base : BitVec 64) (memory : Memory 64)

/-- `RelocateModule` reaches a table in a memory. -/
def TableReached : Table 64 → Memory 64 → Prop :=
  VisitedTable amd64 env (relaEntry env.unbounded) (relEntry env.unbounded)
    (moduleOf amd64 base memory) (shdr amd64 base memory) memory

/-- `RelocateModule` reaches an entry in a memory. -/
def EntryReached : Table 64 → Nat → Memory 64 → Prop :=
  Visited amd64 env (relaEntry env.unbounded) (relEntry env.unbounded)
    (moduleOf amd64 base memory) (shdr amd64 base memory) memory

/-- All entries of the tables are reached, none of them is unknown, and each has been applied if
`Init` is called. -/
def Guarded (init : BitVec 64) : Prop :=
  (∀ table now, TableReached env base memory table now →
    table.rounds amd64 = table.size.toNat / table.entryBytes amd64) ∧
  (∀ table r now, EntryReached env base memory table r now →
    entryPrescription env (moduleOf amd64 base memory) (shdr amd64 base memory) table r now ≠
      none) ∧
  (init ≠ 0 → ∀ table r now, EntryReached env base memory table r now →
    Applied env (moduleOf amd64 base memory) (shdr amd64 base memory) table r now)

variable {env base memory} {init : BitVec 64} {atInit after : Memory 64}
  {constructors : List (BitVec 64)}

/-- In a module that is loaded the loops went on with every entry. -/
theorem loaded_used (loaded : loadModule env.unbounded base memory =
    .ok (.loaded init atInit constructors) after) {table : Table 64} {r : Nat} {now : Memory 64}
    (reached : EntryReached env base memory table r now) :
    ∃ address, usedAddress env (moduleOf amd64 base memory) (shdr amd64 base memory) table r now =
      some address := by
  obtain ⟨mod, middle, relocated, _⟩ := loadModule_loaded loaded
  rw [relocateModule, relocateModule_unbounded] at relocated
  obtain ⟨done, last, loops, rest⟩ := bind_ok.mp relocated
  obtain ⟨same, rfl⟩ := pure_ok.mp rest
  obtain rfl : done = true := congrArg Prod.fst same
  obtain ⟨next, body⟩ := Visited.done reached loops
  rw [body_unbounded] at body
  cases used : usedAddress env (moduleOf amd64 base memory) (shdr amd64 base memory) table r
      now with
  | none =>
    rw [used] at body
    cases body
  | some address => exact ⟨address, rfl⟩

/-- The loop over a table reaches all its entries unless there are too many for an `int`. -/
theorem rounds_iff (table : Table 64) :
    table.rounds amd64 = table.size.toNat / table.entryBytes amd64 ↔
      table.size.toNat / table.entryBytes amd64 < 2 ^ 31 := by
  have positive : table.entryBytes amd64 < 2 ^ 64 := by
    rw [Table.entryBytes]
    split <;> decide
  refine ⟨fun same => ?_, countOf_eq positive⟩
  rw [← same, Table.rounds, countOf]
  have bound := BitVec.toInt_lt
    (x := (table.size / BitVec.ofNat 64 (table.entryBytes amd64)).setWidth 32)
  omega

/-- **Loading.** A module that is loaded has been relocated as its entries prescribe exactly when no
table has too many entries, all entries are of types and symbols that the loader knows, and, if
`Init` is called, none is one of those that it misses. -/
theorem applied_iff (loaded : loadModule env.unbounded base memory =
    .ok (.loaded init atInit constructors) after) :
    Guarded env base memory init ↔
      (∀ table now, TableReached env base memory table now →
        table.size.toNat / table.entryBytes amd64 < 2 ^ 31) ∧
      (∀ table r now, EntryReached env base memory table r now →
        Supported (moduleOf amd64 base memory) (shdr amd64 base memory) table r now) ∧
      (init ≠ 0 → ∀ table r now, EntryReached env base memory table r now →
        Exact env (moduleOf amd64 base memory) (shdr amd64 base memory) table r now) := by
  have supported : ∀ table r now, EntryReached env base memory table r now →
      (entryPrescription env (moduleOf amd64 base memory) (shdr amd64 base memory) table r now ≠
        none ↔ Supported (moduleOf amd64 base memory) (shdr amd64 base memory) table r now) :=
    fun table r now reached => (loaded_used loaded reached).elim fun _ used => supported_iff used
  have exact_ : ∀ table r now, EntryReached env base memory table r now →
      Supported (moduleOf amd64 base memory) (shdr amd64 base memory) table r now →
      (Applied env (moduleOf amd64 base memory) (shdr amd64 base memory) table r now ↔
        Exact env (moduleOf amd64 base memory) (shdr amd64 base memory) table r now) :=
    fun table r now reached known =>
      (loaded_used loaded reached).elim fun _ used => applied_exact used known
  rw [Guarded]
  constructor
  · rintro ⟨counted, known, applied⟩
    have all := fun table r now reached =>
      (supported table r now reached).mp (known table r now reached)
    exact ⟨fun table now reached => (rounds_iff table).mp (counted table now reached), all,
      fun called table r now reached => (exact_ table r now reached (all table r now reached)).mp
        (applied called table r now reached)⟩
  · rintro ⟨counted, known, exacts⟩
    exact ⟨fun table now reached => (rounds_iff table).mpr (counted table now reached),
      fun table r now reached => (supported table r now reached).mpr (known table r now reached),
      fun called table r now reached => (exact_ table r now reached (known table r now reached)).mpr
        (exacts called table r now reached)⟩

end Loading

/-! ## Samples -/

/-- A module with one entry of some type, for the undefined symbol `k`. -/
def sampleImage (type : BitVec 32) : Memory 64 := memoryOf
  [(0x1000, 0x464C457F), (0x1010, 1), (0x1028, 0x40), (0x103C, 5),
    -- The headers of the code, the symbols, the strings and the entry.
    (0x1084, 1), (0x1088, 2), (0x1098, 0x180), (0x10A0, 16),
    (0x10C4, 2), (0x10D8, 0x190), (0x10E0, 72), (0x10E8, 3),
    (0x1104, 3), (0x1118, 0x1E0), (0x1120, 8),
    (0x1144, 4), (0x1158, 0x1F0), (0x1160, 24), (0x116C, 1),
    -- The symbols `k` and `Init`, their names and the entry.
    (0x11A8, 1), (0x11C0, 3), (0x11C4, 0x10000), (0x11E0, 0x49006B00), (0x11E4, 0x74696E),
    (0x11F0, 8), (0x11F8, type), (0x11FC, 1)]

/-- A kernel with the symbol `k`. -/
def sampleEnv : Environment 64 :=
  ⟨fun _ _ => true, fun name => if name = [0x6B] then 0x5000 else 0, fun _ memory => memory⟩

/-- The table of the module. -/
def sampleTable (type : BitVec 32) : Table 64 :=
  ((tableOf amd64 0x1000 (shdr amd64 0x1000 (sampleImage type)) 4 (sampleImage type)).getD
    ⟨false, 0, 0, 0⟩)

/-- The first entry of the first table is reached before anything is patched. -/
theorem first_reached {env : Environment 64} {base : BitVec 64} {memory : Memory 64} {i : Nat}
    {table : Table 64}
    (before : ∀ j < i, (tableOf amd64 base (shdr amd64 base memory) j memory).isNone = true)
    (inside : i < sections amd64 base memory)
    (here : tableOf amd64 base (shdr amd64 base memory) i memory = some table)
    (some : 0 < table.rounds amd64) : EntryReached env base memory table 0 memory :=
  ⟨⟨memory, ⟨i, reaches_past (Nat.zero_le _) (Nat.le_of_lt inside)
    fun j _ small => Option.isNone_iff_eq_none.mp (before j small), inside, here⟩, .start 0 _⟩,
    some⟩

/-- The entry with the type 10 is reached. -/
theorem sample_reached : EntryReached sampleEnv 0x1000 (sampleImage 10) (sampleTable 10) 0
    (sampleImage 10) := by
  have here : (tableOf amd64 0x1000 (shdr amd64 0x1000 (sampleImage 10)) 4
      (sampleImage 10)).isSome = true := by decide +kernel
  exact first_reached (by decide +kernel) (by decide +kernel)
    ((Option.some_get here).symm.trans (congrArg some (Option.get_eq_getD _))) (by decide +kernel)

/-- The module with the type 10 is loaded and its `Init` is called. -/
theorem sample_loaded : ∃ atInit constructors after,
    loadModule sampleEnv.unbounded 0x1000 (sampleImage 10) =
      .ok (.loaded 0x1180 atInit constructors) after := by
  have loaded : (match loadModule sampleEnv.unbounded 0x1000 (sampleImage 10) with
      | .ok (.loaded init _ _) _ => decide (init = 0x1180)
      | _ => false) = true := by
    decide +kernel
  split at loaded
  case _ init atInit constructors after returned =>
    obtain rfl := of_decide_eq_true loaded
    exact ⟨atInit, constructors, after, returned⟩
  case _ => cases loaded

/-- A module with an unknown type is not guarded. -/
theorem applied_iff_sample : ¬ Guarded sampleEnv 0x1000 (sampleImage 10) 0x1180 := by
  obtain ⟨atInit, constructors, after, loaded⟩ := sample_loaded
  intro guarded
  have type : entryType (sampleTable 10) 0 (sampleImage 10) = 10 := by decide +kernel
  rcases ((applied_iff loaded).mp guarded).2.1 _ _ _ sample_reached with zero | eight | ⟨known, _⟩
  · exact absurd (type.symm.trans zero) (by decide)
  · exact absurd (type.symm.trans eight) (by decide)
  · rw [type] at known
    exact absurd known (by decide)

/-- After an unknown type `LoadModule` goes on and calls `Init`. -/
theorem unknown_type_loaded : ¬ ∀ (env : Environment 64) (base : BitVec 64) (memory : Memory 64)
    (init : BitVec 64) (atInit after : Memory 64) (constructors : List (BitVec 64)),
    loadModule env.unbounded base memory = .ok (.loaded init atInit constructors) after →
      Guarded env base memory init := by
  intro claim
  obtain ⟨atInit, constructors, after, loaded⟩ := sample_loaded
  have guarded := claim _ _ _ _ _ _ _ loaded
  exact guarded.2.1 _ _ _ sample_reached (by decide +kernel)

end Unarddeg.Elf.Amd64
