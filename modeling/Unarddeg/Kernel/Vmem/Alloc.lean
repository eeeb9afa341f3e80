import Unarddeg.Kernel.Vmem.Bitmap

/-!
# The block allocator

`kernel/vmem/alloc.c`. A block is a header and its payload on whole pages, taken one at a time
from the bitmap; `kfree` reads the size back from the header and frees that many pages behind
it. The source notes that the first function is unsafe under fragmentation: nothing makes the
pages of one block adjacent. `FreeRun` is the state in which they are.
-/

namespace Unarddeg.Vmem

open Library

variable {width : Nat}

/-- `sizeof(BlockHeader)`: one `size_t` and one pointer. -/
def sizeofBlockHeader (width : Nat) : BitVec width := BitVec.ofNat width (2 * (width / 8))

/-- The pages that hold a total size: `(TotalSize + PAGE_SIZE - 1) / PAGE_SIZE` in `size_t`. -/
def pagesFor (totalSize : BitVec width) : Nat :=
  (totalSize + BitVec.ofNat width pageSize - 1).toNat / pageSize

/-- The rollback loop of `kalloc`: free the pages behind a base from one index on. -/
def freePages (memoryStart base : BitVec width) :
    (remaining index : Nat) → Kernel (PageState width) Unit
  | 0, _ => pure ()
  | remaining + 1, index => do
    freePage memoryStart (base + BitVec.ofNat width (index * pageSize))
    freePages memoryStart base remaining (index + 1)

/-- The loop of `kalloc` that takes the pages behind the first one. -/
def kallocRest (memoryStart base : BitVec width) :
    (remaining index : Nat) → Kernel (PageState width) Unit
  | 0, _ => pure ()
  | remaining + 1, index => do
    let nextPage ← allocatePage memoryStart
    if nextPage = 0 then
      freePages memoryStart base index 0
      panicWith .ranOutOfMemory
    else
      kallocRest memoryStart base remaining (index + 1)

/-- `kalloc`; the null pointer is the address zero. -/
def kalloc (memoryStart size : BitVec width) : Kernel (PageState width) (BitVec width) :=
  if size = 0 then
    pure 0
  else do
    let totalSize := size + sizeofBlockHeader width
    let pagesNeeded := pagesFor totalSize
    let base ← allocatePage memoryStart
    panicIf (base = 0) .ranOutOfMemory
    modify fun state => { state with sizeAt := Function.update state.sizeAt base totalSize }
    kallocRest memoryStart base (pagesNeeded - 1) 1
    pure (base + sizeofBlockHeader width)

/-- `kfree`. -/
def kfree (memoryStart base : BitVec width) : Kernel (PageState width) Unit := do
  panicIf (base = 0) .nullPointerDereference
  let startPage := base - sizeofBlockHeader width
  let state ← get
  freePages memoryStart startPage (pagesFor (state.sizeAt startPage)) 0

/-! ## Runs of free pages -/

/-- The least clear index begins `count` adjacent clear ones, all in the bitmap. -/
structure FreeRun (bits : BitArray 8) (first count : Nat) : Prop where
  /-- The run begins at the least clear index. -/
  start : FirstFree bits first
  /-- The run ends in the bitmap. -/
  inside : first + count ≤ totalBitmap
  /-- Each of its indices is clear. -/
  free : ∀ offset < count, bits.test (first + offset) = false

/-- Marking the first page of a run leaves the rest of the run. -/
theorem FreeRun.tail {bits : BitArray 8} {first count : Nat}
    (run : FreeRun bits first (count + 2)) : FreeRun (bits.mark first) (first + 1) (count + 1) where
  start :=
    { below := by have := run.inside; omega
      free := by
        rw [BitArray.test_mark (by decide), run.free 1 (by omega)]
        simp
      least := by
        intro earlier less
        rw [BitArray.test_mark (by decide)]
        by_cases same : earlier = first
        · simp [same]
        · simp [run.start.least earlier (by omega)] }
  inside := by have := run.inside; omega
  free := by
    intro offset less
    rw [BitArray.test_mark (by decide), Nat.add_assoc, Nat.add_comm 1 offset,
      run.free (offset + 1) (by omega)]
    simp

/-- The addresses of a range of pages are the exact sums, and the range ends in the address
space. -/
structure Addressable (memoryStart : BitVec width) (first count : Nat) : Prop where
  /-- The `int` product and the sum do not wrap. -/
  exact : ∀ offset < count, (pageAddress memoryStart (first + offset : Nat)).toNat =
    memoryStart.toNat + (first + offset) * pageSize
  /-- The end of the range is an address or the end of the address space. -/
  inside : memoryStart.toNat + (first + count) * pageSize ≤ 2 ^ width

/-- The pages of an addressable range lie one behind the other. -/
theorem Addressable.address {memoryStart : BitVec width} {first count : Nat}
    (range : Addressable memoryStart first count) (offset : Nat) (less : offset < count) :
    pageAddress memoryStart (first + offset : Nat) =
      pageAddress memoryStart first + BitVec.ofNat width (offset * pageSize) := by
  have base := range.exact 0 (by omega)
  have page := range.exact offset less
  have bound := range.inside
  have room : (first + offset + 1) * pageSize ≤ (first + count) * pageSize :=
    Nat.mul_le_mul_right _ (by omega)
  have positive : 0 < pageSize := by decide
  simp only [Nat.add_mul, Nat.one_mul] at *
  apply BitVec.eq_of_toNat_eq
  simp only [Nat.add_zero, Nat.zero_mul] at base
  rw [page, BitVec.toNat_add, BitVec.toNat_ofNat, Nat.add_mod_mod, base,
    Nat.mod_eq_of_lt (by omega)]
  omega

/-- `FreePage` computes the bitmap index of each page of an addressable range. -/
theorem Addressable.index {memoryStart : BitVec width} {first count : Nat}
    (range : Addressable memoryStart first count) (offset : Nat) (less : offset < count) :
    pageIndex memoryStart
        (pageAddress memoryStart first + BitVec.ofNat width (offset * pageSize)) =
      first + offset := by
  have positive : 0 < pageSize := by decide
  have bound := memoryStart.isLt
  have page := range.exact offset less
  have below := (pageAddress memoryStart (first + offset : Nat)).isLt
  rw [← range.address offset less, pageIndex, BitVec.toNat_sub, page]
  have whole : 2 ^ width - memoryStart.toNat + (memoryStart.toNat + (first + offset) * pageSize) =
      (first + offset) * pageSize + 2 ^ width := by omega
  rw [whole, Nat.add_mod_right, Nat.mod_eq_of_lt (by omega), Nat.mul_div_cancel _ positive]

/-- Two different pages with exact addresses are a page apart, so clearing one leaves the word
at the start of the other. -/
theorem pageAddress_apart {memoryStart : BitVec width} {left right : Nat}
    (leftExact : (pageAddress memoryStart left).toNat = memoryStart.toNat + left * pageSize)
    (rightExact : (pageAddress memoryStart right).toNat = memoryStart.toNat + right * pageSize)
    (leftInside : memoryStart.toNat + (left + 1) * pageSize ≤ 2 ^ width)
    (rightInside : memoryStart.toNat + (right + 1) * pageSize ≤ 2 ^ width)
    (different : left ≠ right) :
    ¬ (pageAddress memoryStart left - pageAddress memoryStart right).toNat < pageSize := by
  have positive : 0 < pageSize := by decide
  rw [BitVec.toNat_sub, leftExact, rightExact]
  simp only [Nat.add_mul, Nat.one_mul] at leftInside rightInside
  rcases Nat.lt_or_gt_of_ne different with less | more
  · have gap : (left + 1) * pageSize ≤ right * pageSize := Nat.mul_le_mul_right _ less
    simp only [Nat.add_mul, Nat.one_mul] at gap
    rw [Nat.mod_eq_of_lt (by omega)]
    omega
  · have gap : (right + 1) * pageSize ≤ left * pageSize := Nat.mul_le_mul_right _ more
    simp only [Nat.add_mul, Nat.one_mul] at gap
    have whole : 2 ^ width - (memoryStart.toNat + right * pageSize) +
        (memoryStart.toNat + left * pageSize) =
        (left - right) * pageSize + 2 ^ width := by
      rw [Nat.sub_mul]
      omega
    rw [whole, Nat.add_mod_right, Nat.mod_eq_of_lt (by rw [Nat.sub_mul]; omega), Nat.sub_mul]
    omega

/-! ## What the functions return -/

/-- Set each index of a range. -/
def markRange (bits : BitArray 8) (first : Nat) : Nat → BitArray 8
  | 0 => bits
  | count + 1 => markRange (bits.mark first) (first + 1) count

/-- Clear each index of a range. -/
def clearRange (bits : BitArray 8) (first : Nat) : Nat → BitArray 8
  | 0 => bits
  | count + 1 => clearRange (bits.clear first) (first + 1) count

/-- Marking a range sets exactly its indices. -/
theorem test_markRange (bits : BitArray 8) (first count index : Nat) :
    (markRange bits first count).test index =
      (decide (first ≤ index ∧ index < first + count) || bits.test index) := by
  induction count generalizing bits first with
  | zero =>
    have outside : ¬ (first ≤ index ∧ index < first + 0) := by omega
    rw [markRange, decide_eq_false outside, Bool.false_or]
  | succ count ih =>
    rw [markRange, ih, BitArray.test_mark (by decide), Bool.eq_iff_iff]
    simp only [Bool.or_eq_true, decide_eq_true_eq]
    grind

/-- Clearing a range resets exactly its indices. -/
theorem test_clearRange (bits : BitArray 8) (first count index : Nat) :
    (clearRange bits first count).test index =
      (!decide (first ≤ index ∧ index < first + count) && bits.test index) := by
  induction count generalizing bits first with
  | zero =>
    have outside : ¬ (first ≤ index ∧ index < first + 0) := by omega
    rw [clearRange, decide_eq_false outside, Bool.not_false, Bool.true_and]
  | succ count ih =>
    rw [clearRange, ih, BitArray.test_clear (by decide), Bool.eq_iff_iff]
    simp only [Bool.and_eq_true, Bool.not_eq_true', decide_eq_false_iff_not]
    grind

/-- Freeing the pages of an addressable range clears exactly their indices. -/
theorem freePages_ok {memoryStart : BitVec width} {first count : Nat}
    (range : Addressable memoryStart first count) (remaining index : Nat)
    (fits : index + remaining ≤ count) (before after : PageState width) (result : Unit)
    (returned : freePages memoryStart (pageAddress memoryStart first) remaining index before =
      .ok result after) :
    after = { before with
      pageBitmap := clearRange before.pageBitmap (first + index) remaining } := by
  induction remaining generalizing index before with
  | zero =>
    simp only [freePages, pure_ok] at returned
    rw [clearRange, returned.2]
  | succ remaining ih =>
    simp only [freePages, freePage, bind_ok, modify_ok] at returned
    obtain ⟨_, _, rfl, rest⟩ := returned
    rw [ih (index + 1) (by omega) _ rest, range.index index (by omega)]
    rfl

/-- In a run of free pages the loop of `kalloc` takes exactly the pages behind the first one.
The zeroed memory is that of these pages. -/
theorem kallocRest_ok {memoryStart base : BitVec width} {next : Nat} (remaining index : Nat)
    (before after : PageState width) (result : Unit)
    (run : FreeRun before.pageBitmap next remaining ∨ remaining = 0)
    (returned : kallocRest memoryStart base remaining index before = .ok result after) :
    after.pageBitmap = markRange before.pageBitmap next remaining ∧
      ∀ address, (∀ offset < remaining,
          ¬ (address - pageAddress memoryStart (next + offset : Nat)).toNat < pageSize) →
        after.sizeAt address = before.sizeAt address := by
  induction remaining generalizing next index before with
  | zero =>
    simp only [kallocRest, pure_ok] at returned
    obtain ⟨_, rfl⟩ := returned
    exact ⟨rfl, fun _ _ => rfl⟩
  | succ remaining ih =>
    have free := run.resolve_right (by omega)
    simp only [kallocRest, bind_ok, ite_ok, panicWith_ok] at returned
    obtain ⟨page, middle, taken, ⟨_, _, _, _, ⟨⟩⟩ | ⟨_, rest⟩⟩ := returned
    obtain ⟨found, first, rfl, rfl⟩ := allocatePage_ok _ _ _ _ taken
    obtain rfl := first.unique free.start
    have tail : FreeRun (before.pageBitmap.mark found) (found + 1) remaining ∨ remaining = 0 := by
      cases remaining with
      | zero => exact .inr rfl
      | succ remaining => exact .inl free.tail
    obtain ⟨bits, sizes⟩ := ih (index + 1) _ tail rest
    dsimp only at bits sizes
    refine ⟨bits, fun address away => ?_⟩
    rw [sizes address (fun offset less => ?_)]
    · have here := away 0 (by omega)
      simp only [Nat.add_zero] at here
      exact if_neg here
    · have there := away (offset + 1) (by omega)
      rwa [show found + (offset + 1) = found + 1 + offset by omega] at there

/-- In a run of free pages with exact addresses, `kalloc` returns the block that begins at the
first of them, marks exactly the pages of the run, and writes the header of no other page. -/
theorem kalloc_ok {memoryStart size pointer : BitVec width} {first : Nat}
    {before after : PageState width} (nonzero : size ≠ 0)
    (run : FreeRun before.pageBitmap first (pagesFor (size + sizeofBlockHeader width)))
    (some : 0 < pagesFor (size + sizeofBlockHeader width))
    (range : Addressable memoryStart first (pagesFor (size + sizeofBlockHeader width)))
    (returned : kalloc memoryStart size before = .ok pointer after) :
    pointer = pageAddress memoryStart first + sizeofBlockHeader width ∧
      after.pageBitmap =
        markRange before.pageBitmap first (pagesFor (size + sizeofBlockHeader width)) ∧
      after.sizeAt (pageAddress memoryStart first) = size + sizeofBlockHeader width ∧
      ∀ other : Nat, (pageAddress memoryStart other).toNat = memoryStart.toNat + other * pageSize →
        memoryStart.toNat + (other + 1) * pageSize ≤ 2 ^ width →
        (other < first ∨ first + pagesFor (size + sizeofBlockHeader width) ≤ other) →
        after.sizeAt (pageAddress memoryStart other) =
          before.sizeAt (pageAddress memoryStart other) := by
  obtain ⟨count, counted⟩ : ∃ count, pagesFor (size + sizeofBlockHeader width) = count + 1 :=
    ⟨_, (Nat.succ_pred_eq_of_pos some).symm⟩
  rw [counted] at run range ⊢
  simp only [kalloc, counted, ite_ok, bind_ok, panicIf_ok, modify_ok, pure_ok] at returned
  obtain ⟨zero, _⟩ | ⟨_, base, middle, taken, _, _, ⟨_, rfl⟩, _, _, rfl, _, last, rest, rfl,
    rfl⟩ := returned
  · exact absurd zero nonzero
  obtain ⟨found, start, rfl, rfl⟩ := allocatePage_ok _ _ _ _ taken
  obtain rfl := start.unique run.start
  have tail : FreeRun (before.pageBitmap.mark found) (found + 1) (count + 1 - 1) ∨
      count + 1 - 1 = 0 := by
    cases count with
    | zero => exact .inr rfl
    | succ count => exact .inl run.tail
  have exactAt := range.exact
  have insideAt : ∀ offset < count + 1,
      memoryStart.toNat + (found + offset + 1) * pageSize ≤ 2 ^ width := fun offset less =>
    Nat.le_trans (Nat.add_le_add_left (Nat.mul_le_mul_right _ (by omega)) _) range.inside
  obtain ⟨bits, sizes⟩ := kallocRest_ok _ _ _ _ _ tail rest
  dsimp only at bits sizes ⊢
  refine ⟨rfl, bits, ?_, ?_⟩
  · rw [sizes _ (fun offset less => ?_), Function.update_self]
    have page := exactAt (offset + 1) (by omega)
    rw [show found + (offset + 1) = found + 1 + offset by omega] at page
    have room := insideAt (offset + 1) (by omega)
    rw [show found + (offset + 1) = found + 1 + offset by omega] at room
    exact pageAddress_apart (exactAt 0 (by omega)) page (insideAt 0 (by omega)) room (by omega)
  · intro other otherExact otherInside outside
    have apart : ∀ offset < count + 1,
        ¬ (pageAddress memoryStart other -
          pageAddress memoryStart (found + offset : Nat)).toNat < pageSize :=
      fun offset less => pageAddress_apart otherExact (exactAt offset less) otherInside
        (insideAt offset less) (by omega)
    have here := apart 0 (by omega)
    simp only [Nat.add_zero] at here
    have different : pageAddress memoryStart other ≠ pageAddress memoryStart found := by
      intro same
      rw [same, BitVec.sub_self, BitVec.toNat_zero] at here
      exact here (show 0 < pageSize by decide)
    rw [sizes _ (fun offset less => ?_), Function.update_of_ne different]
    · exact if_neg here
    · have there := apart (offset + 1) (by omega)
      rwa [show found + (offset + 1) = found + 1 + offset by omega] at there

/-- `kfree` of a block whose header holds its total size frees exactly the block's pages. -/
theorem kfree_ok {memoryStart totalSize : BitVec width} {first : Nat}
    {before after : PageState width} {result : Unit}
    (header : before.sizeAt (pageAddress memoryStart first) = totalSize)
    (range : Addressable memoryStart first (pagesFor totalSize))
    (returned : kfree memoryStart (pageAddress memoryStart first + sizeofBlockHeader width) before =
      .ok result after) :
    after = { before with
      pageBitmap := clearRange before.pageBitmap first (pagesFor totalSize) } := by
  simp only [kfree, bind_ok, panicIf_ok, get_ok] at returned
  obtain ⟨_, _, ⟨_, rfl⟩, _, _, ⟨rfl, rfl⟩, freed⟩ := returned
  rw [BitVec.add_sub_cancel, header] at freed
  exact freePages_ok range _ 0 (by omega) _ _ _ freed

end Unarddeg.Vmem
