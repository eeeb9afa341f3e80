import Unarddeg.Arch.Module.Load
import Unarddeg.Library.Follow

/-!
# The modules of the boot loader

`LoadModules` of `ia32/arch.c`. It goes along the tags of the boot information until the tag of
type 0 and loads the module of every tag of type 3. It reads neither `total_size` nor checks the
size of a tag: a tag of size 0 keeps it for ever (`empty_tag_hangs`). When the tags lead to an end
tag inside of the block and the modules leave the block alone, every module is loaded once, in the
order of the tags (`loadModules_walks`).
-/

namespace Unarddeg.Ia32

open Library Elf

/-- A call of `LoadModule`. -/
structure ModuleCall where
  /-- `addr`. -/
  addr : BitVec 32
  /-- `size`. -/
  size : BitVec 32
  /-- `name`. -/
  name : BitVec 32
  deriving DecidableEq, Repr

/-- What the loop of `LoadModules` did. -/
structure Walk where
  /-- The offsets of the tags that it looked at. -/
  headers : List (BitVec 32)
  /-- Its calls. -/
  calls : List ModuleCall
  deriving DecidableEq, Repr

section Tags

variable (info : BitVec 32) (memory : Memory 32)

/-- `total_size` of a `multiboot_info`. -/
def totalSize : BitVec 32 := loadAt 32 memory info

/-- `tag->type`. -/
def tagType (offset : BitVec 32) : BitVec 32 := loadAt 32 memory (info + offset)

/-- `tag->size`. -/
def tagSize (offset : BitVec 32) : BitVec 32 := loadAt 32 memory (info + offset + 4)

/-- The call for a `multiboot_tag_module`. -/
def moduleCall (offset : BitVec 32) : ModuleCall where
  addr := loadAt 32 memory (info + offset + 8)
  size := loadAt 32 memory (info + offset + 12) - loadAt 32 memory (info + offset + 8)
  name := info + offset + 16

end Tags

/-- `(tag->size + 7) & ~7`. -/
def tagStep (size : BitVec 32) : BitVec 32 := (size + 7) &&& ~~~7

/-- A call of `LoadModule`, which makes use of the address only. -/
def callModule (env : Environment 32) (call : ModuleCall) : Kernel (Memory 32) Unit := do
  let _ ← Elf.Ia32.loadModule env call.addr
  pure ()

/-- The loop of `LoadModules`, from an offset on. -/
def loadModulesFrom (env : Environment 32) (info : BitVec 32) :
    (fuel : Nat) → (offset : BitVec 32) → Kernel (Memory 32) Walk
  | 0, _ => throw .hang
  | fuel + 1, offset => do
    let memory ← get
    if tagType info memory offset = 0 then pure ⟨[offset], []⟩
    else
      let calls := if tagType info memory offset = 3 then [moduleCall info memory offset] else []
      calls.forM (callModule env)
      -- The size is read behind the call, and the module may have changed it.
      let memory ← get
      let walk ← loadModulesFrom env info fuel (offset + tagStep (tagSize info memory offset))
      pure ⟨offset :: walk.headers, calls ++ walk.calls⟩

/-- `LoadModules`. -/
def loadModules (env : Environment 32) (info : BitVec 32) (fuel : Nat) :
    Kernel (Memory 32) Walk := loadModulesFrom env info fuel 8

/-! ## Blocks with an end -/

section Blocks

variable (info : BitVec 32) (memory : Memory 32)

/-- A tag that is not the end. -/
def goesOn (offset : Nat) : Bool := tagType info memory (.ofNat 32 offset) ≠ 0

/-- The place of the next tag, a multiple of eight bytes behind. -/
def nextTag (offset : Nat) : Nat :=
  offset + ((tagSize info memory (.ofNat 32 offset)).toNat + 7) / 8 * 8

/-- Tags that lead one to the other. -/
abbrev TagPath : Nat → List Nat → Nat → Prop :=
  Path (ε := Stop) (goesOn info memory) fun offset => .ok (nextTag info memory offset)

/-- Tags of a block that lead one to the other from the first one to the end tag, which lies in the
block. -/
structure Tagged (offsets : List Nat) (last : Nat) : Prop where
  /-- They lead to the end tag. -/
  follow : TagPath info memory 8 offsets last
  /-- It is an end tag. -/
  ends : goesOn info memory last = false
  /-- It lies in the block. -/
  inside : last + 8 ≤ (totalSize info memory).toNat

/-- The calls for the module tags among some. -/
def moduleCalls (offsets : List Nat) : List ModuleCall :=
  (offsets.filter fun offset => tagType info memory (.ofNat 32 offset) = 3).map fun offset =>
    moduleCall info memory (.ofNat 32 offset)

/-- The block is as it was. -/
def SameBlock (now : Memory 32) : Prop :=
  ∀ place, Within info (totalSize info memory).toNat place → now place = memory place

/-- Some modules, loaded one after the other, return and leave the block as it was. -/
def Leaves (env : Environment 32) : List ModuleCall → Memory 32 → Prop
  | [], _ => True
  | call :: calls, now => ∃ after, callModule env call now = .ok () after ∧
      SameBlock info memory after ∧ Leaves env calls after

end Blocks

section Walks

variable {info : BitVec 32} {memory now : Memory 32} {env : Environment 32} {offsets : List Nat}
  {offset start last : Nat}

/-- The lower three bits are cleared. -/
theorem toNat_clear (word : BitVec 32) :
    (word &&& ~~~(7 : BitVec 32)).toNat = word.toNat / 8 * 8 := by
  have shifted : word &&& ~~~(7 : BitVec 32) = word >>> 3 <<< 3 := by
    apply BitVec.eq_of_getLsbD_eq
    intro index inside
    have low : (7 : BitVec 32).getLsbD index = decide (index < 3) := by
      show (BitVec.ofNat 32 (2 ^ 3 - 1)).getLsbD index = _
      rw [BitVec.getLsbD_ofNat, Nat.testBit_two_pow_sub_one, decide_eq_true inside, Bool.true_and]
    rw [BitVec.getLsbD_and, BitVec.getLsbD_not, low, BitVec.getLsbD_shiftLeft,
      BitVec.getLsbD_ushiftRight]
    by_cases small : index < 3
    · simp [small]
    · simp [small, inside, show 3 + (index - 3) = index by omega]
  rw [shifted, BitVec.toNat_shiftLeft, BitVec.toNat_ushiftRight, Nat.shiftRight_eq_div_pow,
    Nat.shiftLeft_eq]
  have bound := word.isLt
  omega

/-- The offset of the next tag. -/
theorem offset_tagStep : BitVec.ofNat 32 offset + tagStep (tagSize info memory (.ofNat 32 offset)) =
      .ofNat 32 (nextTag info memory offset) := by
  unfold nextTag
  apply BitVec.eq_of_toNat_eq
  have seven : (7 : BitVec 32).toNat = 7 := rfl
  rw [tagStep, BitVec.toNat_add, toNat_clear, BitVec.toNat_add, seven, BitVec.toNat_ofNat,
    BitVec.toNat_ofNat]
  omega

/-- A word of the block is as it was. -/
theorem loadAt_same (same : SameBlock info memory now) {index : Nat}
    (inside : index + 4 ≤ (totalSize info memory).toNat) :
    loadAt 32 now (info + .ofNat 32 index) = loadAt 32 memory (info + .ofNat 32 index) :=
  loadAt_congr rfl fun place part => same place
    (within_part inside (Nat.le_of_lt (totalSize info memory).isLt) part)

/-- A place behind a tag. -/
theorem info_add (offset bytes : Nat) : info + .ofNat 32 offset + .ofNat 32 bytes =
    info + .ofNat 32 (offset + bytes) := by
  rw [BitVec.add_assoc, BitVec.ofNat_add]

/-- The type of a tag in the block is as it was. -/
theorem tagType_same (same : SameBlock info memory now)
    (inside : offset + 8 ≤ (totalSize info memory).toNat) :
    tagType info now (.ofNat 32 offset) = tagType info memory (.ofNat 32 offset) :=
  loadAt_same same (by omega)

/-- So is its size. -/
theorem tagSize_same (same : SameBlock info memory now)
    (inside : offset + 8 ≤ (totalSize info memory).toNat) :
    tagSize info now (.ofNat 32 offset) = tagSize info memory (.ofNat 32 offset) := by
  show loadAt 32 now (info + .ofNat 32 offset + .ofNat 32 4) =
    loadAt 32 memory (info + .ofNat 32 offset + .ofNat 32 4)
  rw [info_add]
  exact loadAt_same same (by omega)

/-- So is the call for a module tag. -/
theorem moduleCall_same (same : SameBlock info memory now)
    (inside : offset + 16 ≤ (totalSize info memory).toNat) :
    moduleCall info now (.ofNat 32 offset) = moduleCall info memory (.ofNat 32 offset) := by
  have first : loadAt 32 now (info + .ofNat 32 offset + .ofNat 32 8) =
      loadAt 32 memory (info + .ofNat 32 offset + .ofNat 32 8) := by
    rw [info_add]
    exact loadAt_same same (by omega)
  have second : loadAt 32 now (info + .ofNat 32 offset + .ofNat 32 12) =
      loadAt 32 memory (info + .ofNat 32 offset + .ofNat 32 12) := by
    rw [info_add]
    exact loadAt_same same (by omega)
  unfold moduleCall
  congr 1
  exact congrArg₂ (· - ·) second first

/-- A tag that leads to an end does not lead to itself. -/
theorem nextTag_ne (follow : TagPath info memory start offsets last)
    (ends : goesOn info memory last = false) (goes : goesOn info memory start = true) :
    nextTag info memory start ≠ start := by
  intro stays
  induction offsets with
  | nil =>
    obtain rfl := follow
    rw [ends] at goes
    cases goes
  | cons link rest ih =>
    obtain ⟨rfl, _, after, leads, follow⟩ := follow
    obtain rfl := Except.ok.inj leads
    rw [stays] at follow
    exact ih follow

/-- It leads at least eight bytes further. -/
theorem nextTag_le (follow : TagPath info memory start offsets last)
    (ends : goesOn info memory last = false) (goes : goesOn info memory start = true) :
    start + 8 ≤ nextTag info memory start := by
  have moves := nextTag_ne follow ends goes
  unfold nextTag at moves ⊢
  omega

/-- The tags before an end tag lie in front of it. -/
theorem TagPath.le (follow : TagPath info memory start offsets last)
    (ends : goesOn info memory last = false) :
    start ≤ last ∧ ∀ offset ∈ offsets, offset + 8 ≤ last := by
  induction offsets generalizing start with
  | nil => exact ⟨Nat.le_of_eq follow, List.forall_mem_nil _⟩
  | cons link rest ih =>
    have whole := follow
    obtain ⟨rfl, goes, after, leads, follow⟩ := follow
    obtain rfl := Except.ok.inj leads
    have further := nextTag_le whole ends goes
    obtain ⟨behind, others⟩ := ih follow
    exact ⟨by omega, List.forall_mem_cons.mpr ⟨by omega, others⟩⟩

/-- The calls for the first tag, and those for the others. -/
theorem moduleCalls_cons (same : SameBlock info memory now)
    (inside : start + 16 ≤ (totalSize info memory).toNat) :
    moduleCalls info memory (start :: offsets) =
      (if tagType info now (.ofNat 32 start) = 3 then [moduleCall info now (.ofNat 32 start)]
        else []) ++ moduleCalls info memory offsets := by
  rw [tagType_same same (by omega), moduleCall_same same inside]
  unfold moduleCalls
  rw [List.filter_cons]
  by_cases module : tagType info memory (.ofNat 32 start) = 3
  · rw [if_pos (decide_eq_true module), if_pos module]
    rfl
  · rw [if_neg (by simpa using module), if_neg module]
    rfl

/-- The first of some calls return, and then the others do. -/
theorem Leaves.append {first others : List ModuleCall}
    (leaves : Leaves info memory env (first ++ others) now) (same : SameBlock info memory now) :
    ∃ after, first.forM (callModule env) now = .ok ⟨⟩ after ∧ SameBlock info memory after ∧
      Leaves info memory env others after := by
  induction first generalizing now with
  | nil => exact ⟨now, rfl, same, leaves⟩
  | cons call first ih =>
    obtain ⟨middle, returned, kept, later⟩ := leaves
    obtain ⟨after, rest, last⟩ := ih later kept
    exact ⟨after, (bind_of_ok returned).trans rest, last⟩

/-- The loop goes along the tags to the end tag and calls the modules. -/
theorem loadModulesFrom_eq (follow : TagPath info memory start offsets last)
    (ends : goesOn info memory last = false)
    (inside : last + 8 ≤ (totalSize info memory).toNat) {fuel : Nat}
    (enough : offsets.length < fuel) (same : SameBlock info memory now)
    (leaves : Leaves info memory env (moduleCalls info memory offsets) now) :
    ∃ after, loadModulesFrom env info fuel (.ofNat 32 start) now =
      .ok ⟨(offsets ++ [last]).map (.ofNat 32), moduleCalls info memory offsets⟩ after := by
  induction offsets generalizing start now fuel with
  | nil =>
    obtain ⟨fuel, rfl⟩ := Nat.exists_eq_succ_of_ne_zero (Nat.ne_zero_of_lt enough)
    obtain rfl := follow
    have ended : tagType info now (.ofNat 32 start) = 0 := by
      rw [tagType_same same inside]
      exact of_not_not (of_decide_eq_false ends)
    refine ⟨now, ?_⟩
    rw [loadModulesFrom, bind_of_ok (get_ok.mpr ⟨rfl, rfl⟩), if_pos ended]
    rfl
  | cons link rest ih =>
    obtain ⟨fuel, rfl⟩ := Nat.exists_eq_succ_of_ne_zero (Nat.ne_zero_of_lt enough)
    have whole := follow
    obtain ⟨rfl, goes, after, leads, follow⟩ := follow
    obtain rfl := Except.ok.inj leads
    have further := nextTag_le whole ends goes
    obtain ⟨behind, _⟩ := TagPath.le follow ends
    have more : ¬ tagType info now (.ofNat 32 start) = 0 := by
      rw [tagType_same same (by omega)]
      exact of_decide_eq_true goes
    have calls := @moduleCalls_cons info memory now rest start same (by omega)
    rw [calls] at leaves ⊢
    obtain ⟨middle, called, kept, others⟩ := leaves.append same
    obtain ⟨after, walked⟩ := ih follow (Nat.lt_of_succ_lt_succ enough) kept others
    rw [← offset_tagStep, ← tagSize_same kept (by omega)] at walked
    refine ⟨after, ?_⟩
    rw [loadModulesFrom, bind_of_ok (get_ok.mpr ⟨rfl, rfl⟩), if_neg more, bind_of_ok called,
      bind_of_ok (get_ok.mpr ⟨rfl, rfl⟩), bind_of_ok walked]
    rfl

/-- **The walk.** When the tags of a block lead to an end tag in it, and its modules return and
leave it as it was, `LoadModules` returns. It looks at these tags only, all of them in the block,
and loads the module of each tag of type 3 once, in their order. -/
theorem loadModules_walks (tagged : Tagged info memory offsets last)
    (leaves : Leaves info memory env (moduleCalls info memory offsets) memory) :
    ∃ fuel walk after, loadModules env info fuel memory = .ok walk after ∧
      walk.headers = (offsets ++ [last]).map (.ofNat 32) ∧
      (∀ header ∈ walk.headers, header.toNat + 8 ≤ (totalSize info memory).toNat) ∧
      walk.calls = moduleCalls info memory offsets := by
  obtain ⟨follow, ends, inside⟩ := tagged
  obtain ⟨_, before⟩ := TagPath.le follow ends
  obtain ⟨after, walked⟩ := loadModulesFrom_eq follow ends inside (Nat.lt_succ_self _)
    (fun _ _ => rfl) leaves
  refine ⟨_, _, after, walked, rfl, ?_, rfl⟩
  intro header member
  obtain ⟨offset, listed, rfl⟩ := List.mem_map.mp member
  have bound := (totalSize info memory).isLt
  have near : offset ≤ last := by
    rcases List.mem_append.mp listed with front | final
    · have := before offset front
      omega
    · exact Nat.le_of_eq (List.mem_singleton.mp final)
  rw [BitVec.toNat_ofNat]
  omega

/-- The loop never leaves a tag of size 0 that loads nothing. -/
theorem loadModulesFrom_stays {offset : BitVec 32} (goes : tagType info memory offset ≠ 0)
    (other : tagType info memory offset ≠ 3) (empty : tagSize info memory offset = 0) (fuel : Nat)
    (walk : Walk) (after : Memory 32) :
    loadModulesFrom env info fuel offset memory ≠ .ok walk after := by
  induction fuel generalizing walk after with
  | zero => exact fun same => by cases same
  | succ fuel ih =>
    intro returned
    have stays : offset + tagStep (tagSize info memory offset) = offset := by
      rw [empty]
      exact BitVec.add_zero offset
    rw [loadModulesFrom, bind_of_ok (get_ok.mpr ⟨rfl, rfl⟩), if_neg goes, if_neg other] at returned
    obtain ⟨_, middle, nothing, rest⟩ := bind_ok.mp returned
    obtain ⟨_, rfl⟩ := pure_ok.mp nothing
    obtain ⟨_, _, here, rest⟩ := bind_ok.mp rest
    obtain ⟨rfl, rfl⟩ := get_ok.mp here
    obtain ⟨further, last, walked, _⟩ := bind_ok.mp rest
    rw [stays] at walked
    exact ih further last walked

end Walks

/-- An environment whose code does nothing. -/
def idle : Environment 32 := ⟨fun _ _ => true, fun _ => 0, fun _ memory => memory⟩

/-- A block with a tag of 12 bytes and one for a module, which is no ELF file. -/
def sampleBlock : Memory 32 := memoryOf
  [(0x1000, 56), (0x1008, 1), (0x100C, 12), (0x1018, 3), (0x101C, 17), (0x1020, 0x2000),
    (0x1024, 0x2004)]

/-- Its tags lead to its end. -/
theorem sampleBlock_tagged : Tagged 0x1000 sampleBlock [8, 24] 48 where
  follow := ⟨rfl, by decide +kernel, 24, by decide +kernel, rfl, by decide +kernel, 48,
    by decide +kernel, rfl⟩
  ends := by decide +kernel
  inside := by decide +kernel

/-- Its module returns and changes nothing. -/
theorem sampleBlock_leaves : Leaves 0x1000 sampleBlock idle
    (moduleCalls 0x1000 sampleBlock [8, 24]) sampleBlock := by
  have calls : moduleCalls 0x1000 sampleBlock [8, 24] = [⟨0x2000, 4, 0x1028⟩] := by
    decide +kernel
  have first : loadAt 8 sampleBlock 0x2000 = 0 := by decide +kernel
  have returned : callModule idle ⟨0x2000, 4, 0x1028⟩ sampleBlock = .ok () sampleBlock := by
    refine bind_ok.mpr ⟨.notElf, sampleBlock, ?_, rfl⟩
    refine bind_ok.mpr ⟨false, sampleBlock, ?_, rfl⟩
    refine bind_ok.mpr ⟨0, sampleBlock, ?_, rfl⟩
    exact load_ok.mpr ⟨rfl, first, rfl⟩
  rw [calls]
  exact ⟨sampleBlock, returned, fun _ _ => rfl, trivial⟩

/-- The module of the block is loaded. -/
theorem loadModules_walks_sample :
    ∃ fuel walk after, loadModules idle 0x1000 fuel sampleBlock = .ok walk after ∧
      walk.headers = ([8, 24] ++ [48]).map (.ofNat 32) ∧
      (∀ header ∈ walk.headers, header.toNat + 8 ≤ (totalSize 0x1000 sampleBlock).toNat) ∧
      walk.calls = moduleCalls 0x1000 sampleBlock [8, 24] :=
  loadModules_walks sampleBlock_tagged sampleBlock_leaves

/-- A tag of size 0 keeps the loop for ever. -/
theorem empty_tag_hangs : ¬ ∀ (env : Environment 32) (info : BitVec 32) (memory : Memory 32),
    ∃ fuel walk after, loadModules env info fuel memory = .ok walk after := by
  intro claim
  obtain ⟨fuel, walk, after, returned⟩ := claim idle 0x1000 (memoryOf [(0x1000, 24), (0x1008, 1)])
  exact loadModulesFrom_stays (by decide +kernel) (by decide +kernel) (by decide +kernel) fuel walk
    after returned

end Unarddeg.Ia32
