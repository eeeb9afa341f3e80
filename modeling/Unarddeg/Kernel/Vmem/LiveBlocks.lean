import Unarddeg.Kernel.Vmem.Alloc

/-!
# Live blocks over runs of the allocator

A run starts from the all-clear bitmap and calls `kalloc` and `kfree` in any order, each `kfree`
on a live block. Blocks are sound when their pages are disjoint, marked and counted by `MStat`.
`kfree` frees adjacent pages while `kalloc` takes the first free ones, so soundness depends on
the history: it is kept by every run in which each `kalloc` finds the pages it needs as one run
of free pages (`Contiguous`), and is lost on a fragmented bitmap.
-/

namespace Unarddeg.Vmem

open Library

variable {width : Nat}

/-- A block returned by `kalloc`: its pointer and the size asked for. -/
structure Block (width : Nat) where
  /-- The returned pointer. -/
  pointer : BitVec width
  /-- The argument of `kalloc`. -/
  size : BitVec width
  deriving DecidableEq

namespace Block

/-- The address of the block's header. -/
def base (block : Block width) : BitVec width := block.pointer - sizeofBlockHeader width

/-- The pages the block spans, rounded up without overflow. -/
def pages (block : Block width) : Nat :=
  (block.size.toNat + (sizeofBlockHeader width).toNat + pageSize - 1) / pageSize

/-- The addresses of the block's pages. -/
def range (block : Block width) : Set Nat :=
  Set.Ico block.base.toNat (block.base.toNat + block.pages * pageSize)

end Block

/-- The calls of a run. -/
inductive Call (width : Nat)
  | kalloc (size : BitVec width)
  | kfree (pointer : BitVec width)

/-- The allocator's state with the blocks that are live in it. -/
abbrev LiveState (width : Nat) := PageState width × List (Block width)

/-- One call that returns; only a live block is freed. -/
inductive Step (memoryStart : BitVec width) : LiveState width → Call width → LiveState width → Prop
  | kalloc {before after : PageState width} {live : List (Block width)} {size : BitVec width}
      (pointer : BitVec width) (returned : kalloc memoryStart size before = .ok pointer after)
      (block : pointer ≠ 0) :
      Step memoryStart (before, live) (.kalloc size) (after, ⟨pointer, size⟩ :: live)
  | kallocNull {before after : PageState width} {live : List (Block width)} {size : BitVec width}
      (returned : kalloc memoryStart size before = .ok 0 after) :
      Step memoryStart (before, live) (.kalloc size) (after, live)
  | kfree {before after : PageState width} {live : List (Block width)} (block : Block width)
      (owned : block ∈ live) (returned : kfree memoryStart block.pointer before = .ok () after) :
      Step memoryStart (before, live) (.kfree block.pointer) (after, live.erase block)

/-- The state before the first call: no page is marked; the memory holds anything. -/
def allClear (memory : BitVec width → BitVec width) : LiveState width :=
  (⟨fun _ => 0, memory⟩, [])

/-- The pages of the live blocks are disjoint, marked and counted. -/
structure Sound (memoryStart : BitVec width) (state : LiveState width) : Prop where
  /-- No address lies in two live blocks. -/
  disjoint : state.2.Pairwise fun left right => Disjoint left.range right.range
  /-- Each page of a live block is a page of the bitmap, and its bit is set. -/
  marked : ∀ block ∈ state.2, ∀ offset < block.pages,
    pageIndex memoryStart (block.base + BitVec.ofNat width (offset * pageSize)) < totalBitmap ∧
      state.1.pageBitmap.test
        (pageIndex memoryStart (block.base + BitVec.ofNat width (offset * pageSize))) = true
  /-- `MStat` is the number of the other pages. -/
  counted : mStat state.1 + (state.2.map Block.pages).sum = totalBitmap

/-- The condition on a call: a `kalloc` whose size arithmetic does not wrap finds its pages as
one run of free pages that lies in the address space, at the least free page. -/
def Contiguous (memoryStart : BitVec width) (state : LiveState width) : Call width → Prop
  | .kalloc size => size = 0 ∨
      (size.toNat + (sizeofBlockHeader width).toNat + pageSize ≤ 2 ^ width ∧
        ∃ first, FreeRun state.1.pageBitmap first (Block.pages ⟨0, size⟩) ∧
          Addressable memoryStart first (Block.pages ⟨0, size⟩))
  | .kfree _ => True

/-- A call that meets the condition and returns. -/
def ContiguousStep (memoryStart : BitVec width) (before : LiveState width) (call : Call width)
    (after : LiveState width) : Prop :=
  Contiguous memoryStart before call ∧ Step memoryStart before call after

/-! ## The invariant: where each live block lies -/

/-- A live block lies on the pages from `first` on and its header holds its total size. -/
structure Placed (memoryStart : BitVec width) (state : PageState width) (block : Block width)
    (first : Nat) : Prop where
  /-- The pointer lies behind the header on the first page. -/
  pointer : block.pointer = pageAddress memoryStart first + sizeofBlockHeader width
  /-- The addresses of the pages are exact. -/
  range : Addressable memoryStart first block.pages
  /-- The pages lie in the bitmap. -/
  inside : first + block.pages ≤ totalBitmap
  /-- The size arithmetic does not wrap. -/
  total : block.size.toNat + (sizeofBlockHeader width).toNat + pageSize ≤ 2 ^ width
  /-- There is at least one page. -/
  positive : 0 < block.pages
  /-- The header holds the total size. -/
  header : state.sizeAt (pageAddress memoryStart first) = block.size + sizeofBlockHeader width

/-- Every live block is placed, on pages of its own, and the marked pages are theirs. -/
structure Tracked (memoryStart : BitVec width) (state : PageState width)
    (placed : List (Block width × Nat)) : Prop where
  /-- Each block is placed at its first page. -/
  each : ∀ entry ∈ placed, Placed memoryStart state entry.1 entry.2
  /-- No page belongs to two blocks. -/
  apart : placed.Pairwise fun left right =>
    left.2 + left.1.pages ≤ right.2 ∨ right.2 + right.1.pages ≤ left.2
  /-- A page of the bitmap is marked exactly when it belongs to a block. -/
  owned : ∀ index < totalBitmap, (state.pageBitmap.test index = true ↔
    ∃ entry ∈ placed, entry.2 ≤ index ∧ index < entry.2 + entry.1.pages)
  /-- The clear pages and the pages of the blocks are all pages. -/
  counted : (state.pageBitmap.clearBelow totalBitmap).card +
    (placed.map fun entry => entry.1.pages).sum = totalBitmap

/-- When the size arithmetic does not wrap, the code computes the rounded-up page count. -/
theorem pagesFor_eq (block : Block width)
    (total : block.size.toNat + (sizeofBlockHeader width).toNat + pageSize ≤ 2 ^ width) :
    pagesFor (block.size + sizeofBlockHeader width) = block.pages := by
  have last : BitVec.ofNat width pageSize - 1 = BitVec.ofNat width (pageSize - 1) := by
    have split : BitVec.ofNat width pageSize = BitVec.ofNat width (pageSize - 1) + 1 := by
      rw [show pageSize = pageSize - 1 + 1 from rfl, BitVec.ofNat_add]
      rfl
    rw [split, BitVec.add_sub_cancel]
  have small : pageSize - 1 < 2 ^ width := by
    have : 0 < pageSize := by decide
    omega
  have positive : 0 < pageSize := by decide
  rw [pagesFor, Block.pages, BitVec.sub_eq_add_neg, BitVec.add_assoc, ← BitVec.sub_eq_add_neg,
    last, BitVec.toNat_add, BitVec.toNat_add, BitVec.toNat_ofNat,
    Nat.mod_eq_of_lt small, Nat.mod_add_mod, Nat.mod_eq_of_lt (by omega)]
  congr 1

/-- A block is at least as large as its header and payload. -/
theorem Block.le_pages (block : Block width) :
    block.size.toNat + (sizeofBlockHeader width).toNat ≤ block.pages * pageSize := by
  have := Nat.div_add_mod (block.size.toNat + (sizeofBlockHeader width).toNat + pageSize - 1)
    pageSize
  have bound := Nat.mod_lt
    (block.size.toNat + (sizeofBlockHeader width).toNat + pageSize - 1)
    (show 0 < pageSize by decide)
  rw [Block.pages, Nat.mul_comm]
  omega

/-- The header is not empty on a target whose addresses cover a page. -/
theorem sizeofBlockHeader_pos (room : pageSize ≤ 2 ^ width) :
    0 < (sizeofBlockHeader width).toNat := by
  have wide : 12 ≤ width := by
    by_contra narrow
    have : 2 ^ width ≤ 2 ^ 11 := Nat.pow_le_pow_right (by decide) (by omega)
    have : pageSize = 4096 := rfl
    omega
  have small : 2 * (width / 8) < 2 ^ width :=
    Nat.lt_of_le_of_lt (by omega) width.lt_two_pow_self
  rw [sizeofBlockHeader, BitVec.toNat_ofNat, Nat.mod_eq_of_lt small]
  omega

/-- Marking clear pages takes their number from the clear ones. -/
theorem card_markRange (bits : BitArray 8) (first count : Nat)
    (inside : first + count ≤ totalBitmap)
    (free : ∀ offset < count, bits.test (first + offset) = false) :
    ((markRange bits first count).clearBelow totalBitmap).card + count =
      (bits.clearBelow totalBitmap).card := by
  induction count generalizing bits first with
  | zero => rw [markRange, Nat.add_zero]
  | succ count ih =>
    have member : first ∈ bits.clearBelow totalBitmap := by
      rw [BitArray.mem_clearBelow]
      exact ⟨by omega, free 0 (by omega)⟩
    have rest := ih (bits.mark first) (first + 1) (by omega) (fun offset less => by
      rw [BitArray.test_mark (by decide), show first + 1 + offset = first + (offset + 1) by omega,
        free (offset + 1) (by omega)]
      simp)
    rw [BitArray.clearBelow_mark (by decide), Finset.card_erase_of_mem member] at rest
    have := Finset.card_pos.mpr ⟨first, member⟩
    rw [markRange]
    omega

/-- Clearing marked pages adds their number to the clear ones. -/
theorem card_clearRange (bits : BitArray 8) (first count : Nat)
    (inside : first + count ≤ totalBitmap)
    (taken : ∀ offset < count, bits.test (first + offset) = true) :
    ((clearRange bits first count).clearBelow totalBitmap).card =
      (bits.clearBelow totalBitmap).card + count := by
  induction count generalizing bits first with
  | zero => rw [clearRange, Nat.add_zero]
  | succ count ih =>
    have outside : first ∉ bits.clearBelow totalBitmap := by
      rw [BitArray.mem_clearBelow]
      simp [show bits.test first = true from taken 0 (by omega)]
    have rest := ih (bits.clear first) (first + 1) (by omega) (fun offset less => by
      rw [BitArray.test_clear (by decide), show first + 1 + offset = first + (offset + 1) by omega,
        taken (offset + 1) (by omega)]
      simp)
    rw [BitArray.clearBelow_clear (by decide) _ _ _ (by omega),
      Finset.card_insert_of_notMem outside] at rest
    rw [clearRange]
    omega

/-- Tracked blocks are sound. -/
theorem Tracked.sound {memoryStart : BitVec width} {state : PageState width}
    {placed : List (Block width × Nat)} (tracked : Tracked memoryStart state placed) :
    Sound memoryStart (state, placed.map Prod.fst) where
  disjoint := by
    rw [List.pairwise_map]
    apply tracked.apart.imp_of_mem
    intro left right leftMember rightMember apart
    have leftPlaced := tracked.each left leftMember
    have rightPlaced := tracked.each right rightMember
    have leftBase := leftPlaced.range.exact 0 leftPlaced.positive
    have rightBase := rightPlaced.range.exact 0 rightPlaced.positive
    simp only [Nat.add_zero] at leftBase rightBase
    simp only [Block.range, Block.base, leftPlaced.pointer, rightPlaced.pointer,
      BitVec.add_sub_cancel, leftBase, rightBase]
    rw [Set.disjoint_left]
    rintro address ⟨leftLower, leftUpper⟩ ⟨rightLower, rightUpper⟩
    rcases apart with before | after
    · have := Nat.mul_le_mul_right pageSize before
      rw [Nat.add_mul] at this
      omega
    · have := Nat.mul_le_mul_right pageSize after
      rw [Nat.add_mul] at this
      omega
  marked := by
    intro block member offset less
    obtain ⟨⟨block, first⟩, entry, rfl⟩ := List.mem_map.mp member
    have placed := tracked.each _ entry
    dsimp only at placed less ⊢
    have below : first + offset < totalBitmap := by
      have := placed.inside
      omega
    rw [Block.base, placed.pointer, BitVec.add_sub_cancel, placed.range.index offset less]
    exact ⟨below, (tracked.owned _ below).mpr ⟨_, entry, by omega, by dsimp only; omega⟩⟩
  counted := by
    rw [mStat_eq, List.map_map]
    exact tracked.counted

/-- The empty bitmap tracks no block. -/
theorem tracked_allClear (memoryStart : BitVec width) (memory : BitVec width → BitVec width) :
    Tracked memoryStart (allClear memory).1 [] where
  each := by simp
  apart := .nil
  owned := by
    intro index _
    simp [allClear, BitArray.test]
  counted := by
    have all : (allClear memory).1.pageBitmap.clearBelow totalBitmap =
        Finset.range totalBitmap := by
      ext index
      simp [BitArray.mem_clearBelow, allClear, BitArray.test]
    rw [all, Finset.card_range]
    rfl

/-- A run of free pages meets no block. -/
theorem Tracked.separate {memoryStart : BitVec width} {state : PageState width}
    {placed : List (Block width × Nat)} (tracked : Tracked memoryStart state placed)
    {first count : Nat} (run : FreeRun state.pageBitmap first count) (some : 0 < count)
    (entry : Block width × Nat) (member : entry ∈ placed) :
    entry.2 + entry.1.pages ≤ first ∨ first + count ≤ entry.2 := by
  have one := tracked.each entry member
  by_contra overlap
  -- Some page of the run would belong to the other block and so be marked.
  have shared : ∃ offset < count,
      entry.2 ≤ first + offset ∧ first + offset < entry.2 + entry.1.pages :=
    ⟨entry.2 - first, by omega, by omega, by have := one.positive; omega⟩
  obtain ⟨offset, less, lower, upper⟩ := shared
  have set := (tracked.owned (first + offset) (by have := run.inside; omega)).mpr
    ⟨entry, member, lower, upper⟩
  simp [run.free offset less] at set

/-- A `kalloc` that finds a run of free pages adds one tracked block, and returns no null. -/
theorem Tracked.kalloc {memoryStart size pointer : BitVec width} {before after : PageState width}
    {placed : List (Block width × Nat)} (tracked : Tracked memoryStart before placed)
    (nonzero : size ≠ 0) {first : Nat}
    (total : size.toNat + (sizeofBlockHeader width).toNat + pageSize ≤ 2 ^ width)
    (run : FreeRun before.pageBitmap first (Block.pages ⟨0, size⟩))
    (range : Addressable memoryStart first (Block.pages ⟨0, size⟩))
    (returned : kalloc memoryStart size before = .ok pointer after) :
    pointer ≠ 0 ∧ Tracked memoryStart after ((⟨pointer, size⟩, first) :: placed) := by
  have headerPositive : 0 < (sizeofBlockHeader width).toNat := sizeofBlockHeader_pos (by omega)
  have large := Block.le_pages ⟨0, size⟩
  have somePages : 0 < Block.pages (⟨0, size⟩ : Block width) := by
    rcases Nat.eq_zero_or_pos (Block.pages (⟨0, size⟩ : Block width)) with zero | positive
    · rw [zero] at large
      dsimp only at large
      omega
    · exact positive
  have counted := pagesFor_eq ⟨0, size⟩ total
  dsimp only at counted large
  obtain ⟨rfl, bits, header, others⟩ := kalloc_ok nonzero (counted ▸ run)
    (counted ▸ somePages) (counted ▸ range) returned
  rw [counted] at bits others
  have baseExact := range.exact 0 somePages
  have inside := range.inside
  rw [Nat.add_mul] at inside
  simp only [Nat.add_zero] at baseExact
  have separate := tracked.separate run somePages
  refine ⟨?_, ?_, ?_, ?_, ?_⟩
  · intro null
    have value := congrArg BitVec.toNat null
    rw [BitVec.toNat_add, baseExact, Nat.mod_eq_of_lt (by
      have := size.isLt
      have : size.toNat ≠ 0 := fun zero => nonzero (BitVec.eq_of_toNat_eq (by simpa using zero))
      omega), show (0 : BitVec width).toNat = 0 by simp] at value
    omega
  · intro entry member
    rcases List.mem_cons.mp member with rfl | old
    · exact ⟨rfl, range, run.inside, total, somePages, header⟩
    · have one := tracked.each entry old
      have exact_ := one.range.exact 0 one.positive
      have roomy : (entry.2 + 1) * pageSize ≤ (entry.2 + entry.1.pages) * pageSize :=
        Nat.mul_le_mul_right _ (by have := one.positive; omega)
      have oneInside := one.range.inside
      exact ⟨one.pointer, one.range, one.inside, one.total, one.positive,
        (others entry.2 (by simpa using exact_) (by omega) (by
          have := one.positive
          have := separate entry old
          omega)).trans one.header⟩
  · refine .cons (fun entry member => ?_) tracked.apart
    exact (separate entry member).symm
  · intro index below
    rw [bits, test_markRange, Bool.or_eq_true, decide_eq_true_eq, tracked.owned index below]
    simp only [List.mem_cons, exists_eq_or_imp]
    rfl
  · rw [bits, List.map_cons, List.sum_cons]
    have fewer := card_markRange before.pageBitmap first _ run.inside run.free
    have := tracked.counted
    have same : Block.pages (⟨pageAddress memoryStart first + sizeofBlockHeader width, size⟩ :
        Block width) = Block.pages (⟨0, size⟩ : Block width) := rfl
    dsimp only
    omega

/-- A `kfree` of a tracked block removes it. -/
theorem Tracked.kfree {memoryStart : BitVec width} {before after : PageState width}
    {earlier later : List (Block width × Nat)} {block : Block width} {first : Nat}
    (tracked : Tracked memoryStart before (earlier ++ (block, first) :: later))
    (returned : kfree memoryStart block.pointer before = .ok () after) :
    Tracked memoryStart after (earlier ++ later) := by
  have one := tracked.each (block, first) (by simp)
  have counted := pagesFor_eq block one.total
  dsimp only at one
  rw [one.pointer] at returned
  obtain rfl := kfree_ok one.header (counted.symm ▸ one.range) returned
  rw [counted]
  have split := List.pairwise_append.mp tracked.apart
  have kept : ∀ entry ∈ earlier ++ later, entry ∈ earlier ++ (block, first) :: later := by
    intro entry member
    simp only [List.mem_append, List.mem_cons] at member ⊢
    tauto
  have separate : ∀ entry ∈ earlier ++ later, entry.2 + entry.1.pages ≤ first ∨
      first + block.pages ≤ entry.2 := by
    intro entry member
    rcases List.mem_append.mp member with old | new
    · exact split.2.2 entry old _ List.mem_cons_self
    · exact ((List.pairwise_cons.mp split.2.1).1 entry new).symm
  refine ⟨fun entry member => ?_, ?_, ?_, ?_⟩
  · have other := tracked.each entry (kept entry member)
    exact ⟨other.pointer, other.range, other.inside, other.total, other.positive, other.header⟩
  · exact tracked.apart.sublist (by simp)
  · intro index below
    dsimp only
    rw [test_clearRange, Bool.and_eq_true, tracked.owned index below]
    simp only [Bool.not_eq_true', decide_eq_false_iff_not]
    constructor
    · rintro ⟨outside, entry, member, lower, upper⟩
      rcases List.mem_append.mp member with old | new
      · exact ⟨entry, List.mem_append_left _ old, lower, upper⟩
      · rcases List.mem_cons.mp new with rfl | rest
        · exact absurd ⟨lower, upper⟩ outside
        · exact ⟨entry, List.mem_append_right _ rest, lower, upper⟩
    · rintro ⟨entry, member, lower, upper⟩
      have := separate entry member
      exact ⟨by omega, entry, kept entry member, lower, upper⟩
  · have taken : ∀ offset < block.pages, before.pageBitmap.test (first + offset) = true := by
      intro offset less
      exact (tracked.owned _ (by have := one.inside; omega)).mpr
        ⟨(block, first), by simp, by dsimp only; omega, by dsimp only; omega⟩
    have more := card_clearRange before.pageBitmap first block.pages one.inside taken
    have := tracked.counted
    simp only [List.map_append, List.map_cons, List.sum_append, List.sum_cons] at this ⊢
    omega

/-! ## Runs -/

/-- One contiguous call keeps the live blocks tracked. -/
theorem Step.tracked {memoryStart : BitVec width} {before after : LiveState width}
    {call : Call width} (step : Step memoryStart before call after)
    (contiguous : Contiguous memoryStart before call) {placed : List (Block width × Nat)}
    (tracked : Tracked memoryStart before.1 placed) (live : before.2 = placed.map Prod.fst) :
    ∃ next, Tracked memoryStart after.1 next ∧ after.2 = next.map Prod.fst := by
  cases step with
  | @kalloc before after live' size pointer returned block =>
    rcases contiguous with rfl | ⟨total, first, run, range⟩
    · simp only [Vmem.kalloc, ite_ok, pure_ok, not_true_eq_false, false_and, or_false,
        true_and] at returned
      exact absurd returned.1.symm block
    · have nonzero : size ≠ 0 := by
        rintro rfl
        simp only [Vmem.kalloc, ite_ok, pure_ok, not_true_eq_false, false_and, or_false,
          true_and] at returned
        exact block returned.1.symm
      have extended := (tracked.kalloc nonzero total run range returned).2
      exact ⟨_, extended, by rw [List.map_cons, ← live]⟩
  | @kallocNull before after live' size returned =>
    by_cases zero : size = 0
    · subst zero
      simp only [Vmem.kalloc, ite_ok, pure_ok, not_true_eq_false, false_and, or_false,
        true_and] at returned
      obtain rfl := returned
      exact ⟨placed, tracked, live⟩
    · obtain ⟨total, first, run, range⟩ := contiguous.resolve_left zero
      exact absurd rfl (tracked.kalloc zero total run range returned).1
  | @kfree before after live' block owned returned =>
    dsimp only at live
    obtain ⟨earlier, later, _, split, erased⟩ := List.exists_erase_eq owned
    rw [live] at split
    obtain ⟨front, rest, rfl, rfl, tail⟩ := List.map_eq_append_iff.mp split
    obtain ⟨⟨block, first⟩, back, rfl, rfl, rfl⟩ := List.map_eq_cons_iff.mp tail
    exact ⟨front ++ back, tracked.kfree returned, by dsimp only; rw [erased, List.map_append]⟩

/-- **Live blocks are sound on contiguous runs.** In every run from the all-clear bitmap whose
every `kalloc` finds its pages as one run of free pages, the live blocks of every state reached
are disjoint, marked and counted. -/
theorem contiguous_run_sound (memoryStart : BitVec width) (memory : BitVec width → BitVec width)
    (calls : List (Call width)) (state : LiveState width)
    (run : Run (ContiguousStep memoryStart) (allClear memory) calls state) :
    Sound memoryStart state := by
  have placed : ∃ placed, Tracked memoryStart state.1 placed ∧ state.2 = placed.map Prod.fst := by
    refine run.invariant (fun state => ∃ placed,
      Tracked memoryStart state.1 placed ∧ state.2 = placed.map Prod.fst) ?_
      ⟨[], tracked_allClear memoryStart memory, rfl⟩
    rintro before call after ⟨placed, tracked, live⟩ ⟨contiguous, step⟩
    exact step.tracked contiguous tracked live
  obtain ⟨placed, tracked, live⟩ := placed
  have sound := tracked.sound
  rwa [← live] at sound

/-- Two blocks, one of two pages, and the release of the first are a contiguous run. -/
theorem contiguous_run_sound_two_pages :
    ∃ state, Run (ContiguousStep (0x300000 : BitVec 32)) (allClear fun _ => 0)
      [.kalloc 5000, .kalloc 1, .kfree 0x300008] state ∧
      Sound (0x300000 : BitVec 32) state := by
  have run : ∃ state, Run (ContiguousStep (0x300000 : BitVec 32)) (allClear fun _ => 0)
      [.kalloc 5000, .kalloc 1, .kfree 0x300008] state :=
    ⟨_, .snoc (.snoc (.snoc (.nil _)
      ⟨.inr ⟨by decide, 0, ⟨⟨by decide, rfl, by decide⟩, by decide, by decide⟩,
        by decide, by decide⟩, .kalloc 0x300008 rfl (by decide)⟩)
      ⟨.inr ⟨by decide, 2, ⟨⟨by decide, rfl, by decide⟩, by decide, by decide⟩,
        by decide, by decide⟩, .kalloc 0x302008 rfl (by decide)⟩)
      ⟨trivial, .kfree ⟨0x300008, 5000⟩ (by decide) rfl⟩⟩
  obtain ⟨state, run⟩ := run
  exact ⟨state, run, contiguous_run_sound _ _ _ _ run⟩

/-- A fragmented bitmap makes two live blocks share a page: with the first of two one-page
blocks freed, a two-page block takes pages 0 and 2 and claims page 1 of the other block. -/
theorem fragmented_run_unsound :
    ∃ state, Run (Step (0x300000 : BitVec 32)) (allClear fun _ => 0)
      [.kalloc 1, .kalloc 1, .kfree 0x300008, .kalloc 4096] state ∧
      ¬ Sound (0x300000 : BitVec 32) state := by
  refine ⟨_, .snoc (.snoc (.snoc (.snoc (.nil _)
    (.kalloc 0x300008 rfl (by decide)))
    (.kalloc 0x301008 rfl (by decide)))
    (.kfree ⟨0x300008, 1⟩ (by decide) rfl))
    (.kalloc 0x300008 rfl (by decide)), ?_⟩
  intro sound
  have disjoint := (List.pairwise_cons.mp sound.disjoint).1 ⟨0x301008, 1⟩ (by decide)
  exact Set.disjoint_left.mp disjoint
    (show 0x301000 ∈ _ from ⟨by decide, by decide⟩) ⟨by decide, by decide⟩

end Unarddeg.Vmem
