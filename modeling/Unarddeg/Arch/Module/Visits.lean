import Unarddeg.Arch.Module.Tables

/-!
# The entries that the loops of `RelocateModule` reach

Patches may change the tables that the loops read, so what a loop does with an entry depends on the
memory in which it reaches it. `Visited` relates the entries to those memories.
-/

namespace Unarddeg.Elf

open Library

/-- A table of relocation entries, as the loop over the sections reads it. -/
structure Table (width : Nat) where
  /-- Its entries are of `struct elf_rela`. -/
  rela : Bool
  /-- `target_base`. -/
  targetBase : BitVec width
  /-- The place of the first entry. -/
  start : BitVec width
  /-- `sh_size`. -/
  size : BitVec width
  deriving DecidableEq

section Tables

variable {width : Nat} (layout : Layout width) (env : Environment width)
  (relaEntry relEntry : EntryLoop width)

/-- The table in a section, if it is one for a section with `SHF_ALLOC`. -/
def tableOf (base shdr : BitVec width) (i : Nat) (memory : Memory width) : Option (Table width) :=
  let section_ := element shdr layout.sectionBytes (.ofNat width i)
  let type := loadAt 32 memory (section_ + 4)
  let target := element shdr layout.sectionBytes
    ((loadAt 32 memory (section_ + layout.shInfo)).signExtend width)
  if type ≠ shtRel ∧ type ≠ shtRela then none
  else if loadAt width memory (target + 8) &&& shfAlloc width = 0 then none
  else some {
    rela := type = shtRela
    targetBase := base + loadAt width memory (target + layout.shOffset)
    start := base + loadAt width memory (section_ + layout.shOffset)
    size := loadAt width memory (section_ + layout.shSize) }

/-- The bytes of an entry of a table. -/
def Table.entryBytes (table : Table width) : Nat :=
  if table.rela then layout.relaBytes else layout.relBytes

/-- The rounds of the loop over a table. -/
def Table.rounds (table : Table width) : Nat := countOf table.size (table.entryBytes layout)

/-- The body of the loop over a table. -/
def Table.body (table : Table width) (mod : LoadedModule width) (shdr : BitVec width) :
    Nat → Kernel (Memory width) Bool :=
  if table.rela then relaEntry mod shdr table.targetBase table.start
  else relEntry mod shdr table.targetBase table.start

variable {layout env relaEntry relEntry} {mod : LoadedModule width} {shdr : BitVec width} {i : Nat}
  {memory : Memory width}

/-- Without bounds the body of the loop over the sections goes through the table in a section. -/
theorem relocateSection_unbounded :
    relocateSection layout env.unbounded relaEntry relEntry mod shdr i memory =
      match tableOf layout mod.base shdr i memory with
      | none => .ok true memory
      | some table => loop (moreEntries (table.rounds layout))
          (table.body relaEntry relEntry mod shdr) (table.rounds layout) 0 memory := by
  rw [relocateSection, tableOf]
  simp only [load_unbounded_bind]
  generalize loadAt 32 memory (element shdr layout.sectionBytes (.ofNat width i) + 4) = type
  by_cases other : type ≠ shtRel ∧ type ≠ shtRela
  · rw [if_pos other, if_pos other]
    rfl
  · rw [if_neg other, if_neg other, load_unbounded_bind, load_unbounded_bind]
    split
    · rfl
    · by_cases rela : type = shtRela <;>
        simp [Table.rounds, Table.body, Table.entryBytes, rela]

end Tables

section Visits

variable {width : Nat} (layout : Layout width) (env : Environment width)
  (relaEntry relEntry : EntryLoop width) (mod : LoadedModule width) (shdr : BitVec width)
  (memory : Memory width)

/-- The loop over the sections reaches a table in a memory. -/
structure VisitedTable (table : Table width) (now : Memory width) : Prop where
  /-- It reaches its section. -/
  reached : ∃ i, Reaches (moreSections layout env.unbounded mod.base)
    (relocateSection layout env.unbounded relaEntry relEntry mod shdr) 0 memory i now ∧
      i < (loadAt 16 now (mod.base + layout.shnum)).toNat ∧
        tableOf layout mod.base shdr i now = some table

/-- The loop over a table reaches an entry in a memory. -/
structure Visited (table : Table width) (r : Nat) (now : Memory width) : Prop where
  /-- The table is reached, and then the entry. -/
  reached : ∃ middle, VisitedTable layout env relaEntry relEntry mod shdr memory table middle ∧
    Reaches (moreEntries (table.rounds layout)) (table.body relaEntry relEntry mod shdr) 0 middle
      r now
  /-- It is an entry of the table. -/
  inside : r < table.rounds layout

variable {layout env relaEntry relEntry mod shdr memory} {after : Memory width}

/-- The loop over the sections goes past those without tables. -/
theorem reaches_past {i last : Nat} (ordered : i ≤ last)
    (inside : last ≤ (loadAt 16 memory (mod.base + layout.shnum)).toNat)
    (none : ∀ j, i ≤ j → j < last → tableOf layout mod.base shdr j memory = none) :
    Reaches (moreSections layout env.unbounded mod.base)
      (relocateSection layout env.unbounded relaEntry relEntry mod shdr) i memory last memory := by
  obtain ⟨rounds, rfl⟩ := Nat.exists_eq_add_of_le ordered
  induction rounds generalizing i with
  | zero => exact .start i memory
  | succ rounds ih =>
    have test : moreSections layout env.unbounded mod.base i memory = .ok true memory :=
      moreSections_unbounded.trans (by rw [decide_eq_true (by omega)])
    have body : relocateSection layout env.unbounded relaEntry relEntry mod shdr i memory =
        .ok true memory := by
      rw [relocateSection_unbounded, none i (Nat.le_refl _) (by omega)]
    rw [← Nat.succ_add_eq_add_succ]
    exact .next test body (ih (by omega) (by omega) fun j above below =>
      none j (by omega) (by omega))

/-- Without tables the loop over the sections changes nothing. -/
theorem reaches_same {i last : Nat} {now : Memory width}
    (none : ∀ j < (loadAt 16 memory (mod.base + layout.shnum)).toNat,
      tableOf layout mod.base shdr j memory = none)
    (reach : Reaches (moreSections layout env.unbounded mod.base)
      (relocateSection layout env.unbounded relaEntry relEntry mod shdr) i memory last now) :
    now = memory := by
  generalize start : memory = state at reach
  induction reach with
  | start => rfl
  | next tests taken _ ih =>
    subst start
    rw [moreSections_unbounded] at tests
    obtain ⟨more, rfl⟩ := EStateM.Result.ok.inj tests
    rw [relocateSection_unbounded, none _ (of_decide_eq_true more)] at taken
    obtain ⟨_, rfl⟩ := EStateM.Result.ok.inj taken
    exact ih rfl

/-- Without tables no entry is reached. -/
theorem not_visited {table : Table width} {r : Nat} {now : Memory width}
    (none : ∀ j < (loadAt 16 memory (mod.base + layout.shnum)).toNat,
      tableOf layout mod.base shdr j memory = none) :
    ¬ Visited layout env relaEntry relEntry mod shdr memory table r now := by
  rintro ⟨⟨middle, ⟨⟨i, reach, small, here⟩⟩, _⟩, _⟩
  obtain rfl := reaches_same none reach
  rw [none i small] at here
  cases here

/-- When the loop over the sections returns `true`, the bodies of the loops over the entries do. -/
theorem Visited.done {table : Table width} {r : Nat} {now : Memory width}
    (visited : Visited layout env relaEntry relEntry mod shdr memory table r now)
    (returned : loop (moreSections layout env.unbounded mod.base)
      (relocateSection layout env.unbounded relaEntry relEntry mod shdr) 65536 0 memory =
        .ok true after) :
    ∃ next, table.body relaEntry relEntry mod shdr r now = .ok true next := by
  obtain ⟨middle, ⟨⟨i, section_, small, here⟩⟩, entry⟩ := visited.reached
  have few := (loadAt 16 middle (mod.base + layout.shnum)).isLt
  obtain ⟨next, taken⟩ := loop_true returned section_ (by omega)
    (moreSections_unbounded.trans (by rw [decide_eq_true small]))
  rw [relocateSection_unbounded, here] at taken
  refine loop_true taken entry (by have := visited.inside; omega) ?_
  rw [moreEntries, decide_eq_true visited.inside]
  rfl

/-- What the bodies of the loops keep for every entry that is reached, the loops keep. -/
theorem relocated_keeps {τ : Type} {view : Memory width → τ}
    (entries : ∀ table r now, Visited layout env relaEntry relEntry mod shdr memory table r now →
      ∀ done next, table.body relaEntry relEntry mod shdr r now = .ok done next →
        view next = view now)
    {count : Nat} {done : Bool}
    (returned : loop (moreSections layout env.unbounded mod.base)
      (relocateSection layout env.unbounded relaEntry relEntry mod shdr) count 0 memory =
        .ok done after) :
    view after = view memory := by
  refine loop_keeps (fun i state result tested tries => ?_) (fun i middle result next reach more
    body => ?_) returned
  · rw [moreSections_unbounded] at tries
    cases tries
    rfl
  · rw [moreSections_unbounded] at more
    have small : decide (i < (loadAt 16 middle (mod.base + layout.shnum)).toNat) = true := by
      injection more
    rw [relocateSection_unbounded] at body
    cases found : tableOf layout mod.base shdr i middle with
    | none =>
      rw [found] at body
      cases body
      rfl
    | some table =>
      rw [found] at body
      have reached : VisitedTable layout env relaEntry relEntry mod shdr memory table middle :=
        ⟨i, reach, of_decide_eq_true small, found⟩
      refine loop_keeps (fun r state result tested tries => (pure_ok.mp tries).2.symm)
        (fun r now result next entry test taken => ?_) body
      have inside : r < table.rounds layout := of_decide_eq_true (pure_ok.mp test).1
      exact entries table r now ⟨⟨middle, reached, entry⟩, inside⟩ result next taken

end Visits

end Unarddeg.Elf
