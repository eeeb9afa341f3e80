import Unarddeg.Kernel.Panic
import Unarddeg.Library.BitArray

/-!
# The page bitmap

`kernel/vmem/bitmap.c`. One bit for each page of the memory that begins at `MemoryStart`; pages
are handed out first fit. Addresses are words of the target's pointer width. The byte index of a
freed page is not checked by the source, so the bitmap is modelled with the bytes behind it.
-/

namespace Unarddeg.Vmem

open Library

/-- `TOTAL_BITMAP`. -/
def totalBitmap : Nat := 1024 * 1024

/-- `PAGE_SIZE`. -/
def pageSize : Nat := 4096

/-- The bitmap, and the memory it manages as far as the allocator reads it back: the `Size`
field of the `BlockHeader` at each address. -/
structure PageState (width : Nat) where
  /-- `PageBitmap`, one byte for eight pages. -/
  pageBitmap : BitArray 8
  /-- The `Size` field stored at an address. -/
  sizeAt : BitVec width → BitVec width

variable {width : Nat}

/-- The loop of `MStat` over the remaining indices. -/
def mStatFrom (bits : BitArray 8) : (remaining index free : Nat) → Nat
  | 0, _, free => free
  | remaining + 1, index, free =>
    mStatFrom bits remaining (index + 1) (if bits.test index then free else free + 1)

/-- `MStat`: the number of free pages. -/
def mStat (state : PageState width) : Nat := mStatFrom state.pageBitmap totalBitmap 0 0

/-- The loop of `GetFreePage` over the remaining indices. -/
def getFreePageFrom : (remaining index : Nat) → Kernel (PageState width) Int
  | 0, _ => pure (-1)
  | remaining + 1, index => do
    let state ← get
    if state.pageBitmap.test index then
      getFreePageFrom remaining (index + 1)
    else
      modify fun state => { state with pageBitmap := state.pageBitmap.mark index }
      pure index

/-- `GetFreePage`: mark the first clear index and return it, or return `-1`. -/
def getFreePage : Kernel (PageState width) Int := getFreePageFrom totalBitmap 0

/-- The bitmap index `FreePage` computes for an address. -/
def pageIndex (memoryStart page : BitVec width) : Nat := (page - memoryStart).toNat / pageSize

/-- `FreePage`. -/
def freePage (memoryStart page : BitVec width) : Kernel (PageState width) Unit :=
  modify fun state =>
    { state with pageBitmap := state.pageBitmap.clear (pageIndex memoryStart page) }

/-- The address of a page: the product `PageIdx * PAGE_SIZE` is an `int` and is widened with its
sign to the pointer width. -/
def pageAddress (memoryStart : BitVec width) (index : Int) : BitVec width :=
  memoryStart + (BitVec.ofInt 32 (index * pageSize)).signExtend width

/-- `memset(Page, 0, PAGE_SIZE)` on one page of the managed memory. -/
def memsetPage (page : BitVec width) : Kernel (PageState width) Unit := do
  panicIf (page = 0) .nullPointerDereference
  modify fun state =>
    { state with
      sizeAt := fun address =>
        if (address - page).toNat < pageSize then 0 else state.sizeAt address }

/-- `AllocatePage`. -/
def allocatePage (memoryStart : BitVec width) : Kernel (PageState width) (BitVec width) := do
  let pageIdx ← getFreePage
  panicIf (pageIdx = -1) .ranOutOfMemory
  let page := pageAddress memoryStart pageIdx
  memsetPage page
  pure page

/-! ## What the scans return -/

/-- The least clear index below the end of the bitmap. -/
structure FirstFree (bits : BitArray 8) (index : Nat) : Prop where
  /-- It lies in the bitmap. -/
  below : index < totalBitmap
  /-- It is clear. -/
  free : bits.test index = false
  /-- Every smaller index is set. -/
  least : ∀ earlier < index, bits.test earlier = true

/-- The least clear index is unique. -/
theorem FirstFree.unique {bits : BitArray 8} {left right : Nat} (first : FirstFree bits left)
    (second : FirstFree bits right) : left = right := by
  rcases Nat.lt_trichotomy left right with less | same | more
  · have := second.least left less
    simp [first.free] at this
  · exact same
  · have := first.least right more
    simp [second.free] at this

/-- The scan either marks the first clear index it meets or finds none and changes nothing. -/
theorem getFreePageFrom_ok (remaining index : Nat) (before after : PageState width)
    (result : Int) (returned : getFreePageFrom remaining index before = .ok result after) :
    (∃ found, index ≤ found ∧ found < index + remaining ∧ result = found ∧
        before.pageBitmap.test found = false ∧
        (∀ earlier, index ≤ earlier → earlier < found →
          before.pageBitmap.test earlier = true) ∧
        after = { before with pageBitmap := before.pageBitmap.mark found }) ∨
      (result = -1 ∧ after = before ∧
        ∀ earlier, index ≤ earlier → earlier < index + remaining →
          before.pageBitmap.test earlier = true) := by
  induction remaining generalizing index with
  | zero =>
    simp only [getFreePageFrom, pure_ok] at returned
    exact .inr ⟨returned.1.symm, returned.2.symm, fun earlier lower upper => by omega⟩
  | succ remaining ih =>
    simp only [getFreePageFrom, bind_ok, get_ok, ite_ok] at returned
    obtain ⟨state, middle, ⟨rfl, rfl⟩, branch⟩ := returned
    rcases branch with ⟨taken, rest⟩ | ⟨free, found⟩
    · rcases ih (index + 1) rest with ⟨found, lower, upper, value, clear, least, rfl⟩ | none
      · refine .inl ⟨found, by omega, by omega, value, clear, ?_, rfl⟩
        intro earlier from_ below
        by_cases start : earlier = index
        · rw [start, taken]
        · exact least earlier (by omega) below
      · refine .inr ⟨none.1, none.2.1, ?_⟩
        intro earlier from_ below
        by_cases start : earlier = index
        · rw [start, taken]
        · exact none.2.2 earlier (by omega) (by omega)
    · simp only [modify_ok, pure_ok] at found
      obtain ⟨_, _, rfl, value, rfl⟩ := found
      exact .inl ⟨index, le_rfl, by omega, value.symm, by simpa using free,
        fun earlier lower below => by omega, rfl⟩

/-- `GetFreePage` marks the least clear index, or every index is set. -/
theorem getFreePage_ok (before after : PageState width) (result : Int)
    (returned : getFreePage before = .ok result after) :
    (∃ found : Nat, result = found ∧ FirstFree before.pageBitmap found ∧
        after = { before with pageBitmap := before.pageBitmap.mark found }) ∨
      (result = -1 ∧ after = before ∧
        ∀ index < totalBitmap, before.pageBitmap.test index = true) := by
  rcases getFreePageFrom_ok totalBitmap 0 before after result returned with
    ⟨found, _, below, value, free, least, rfl⟩ | ⟨value, same, full⟩
  · exact .inl ⟨found, value, ⟨by omega, free, fun earlier less =>
      least earlier (Nat.zero_le _) less⟩, rfl⟩
  · exact .inr ⟨value, same, fun index below => full index (Nat.zero_le _) (by omega)⟩

/-- A page that `AllocatePage` returns is the least free one; its bit is set and its memory is
zero afterwards, and nothing else changes. -/
theorem allocatePage_ok (memoryStart : BitVec width) (before after : PageState width)
    (page : BitVec width) (returned : allocatePage memoryStart before = .ok page after) :
    ∃ found : Nat, FirstFree before.pageBitmap found ∧ page = pageAddress memoryStart found ∧
      after = { pageBitmap := before.pageBitmap.mark found
                sizeAt := fun address =>
                  if (address - page).toNat < pageSize then 0 else before.sizeAt address } := by
  simp only [allocatePage, memsetPage, bind_ok, panicIf_ok, modify_ok, pure_ok] at returned
  obtain ⟨pageIdx, marked, scanned, _, _, ⟨inside, rfl⟩, _, _, ⟨_, _, ⟨_, rfl⟩, rfl⟩,
    rfl, rfl⟩ := returned
  rcases getFreePage_ok before marked pageIdx scanned with ⟨found, rfl, first, rfl⟩ | none
  · exact ⟨found, first, rfl, rfl⟩
  · exact absurd none.1 inside

/-- The count of `MStat` is the number of clear indices. -/
theorem mStatFrom_eq (bits : BitArray 8) (remaining index free : Nat) :
    mStatFrom bits remaining index free =
      free + ((Finset.range (index + remaining)).filter
        fun page => index ≤ page ∧ bits.test page = false).card := by
  induction remaining generalizing index free with
  | zero =>
    have none : ((Finset.range (index + 0)).filter
        fun page => index ≤ page ∧ bits.test page = false) = ∅ := by
      apply Finset.filter_eq_empty_iff.mpr
      intro page member
      have := Finset.mem_range.mp member
      omega
    rw [none]
    rfl
  | succ remaining ih =>
    rw [mStatFrom, ih]
    by_cases taken : bits.test index = true
    · have same : ((Finset.range (index + 1 + remaining)).filter
            fun page => index + 1 ≤ page ∧ bits.test page = false) =
          (Finset.range (index + (remaining + 1))).filter
            fun page => index ≤ page ∧ bits.test page = false := by
        ext page
        simp only [Finset.mem_filter, Finset.mem_range]
        grind
      rw [if_pos taken, same]
    · have split : ((Finset.range (index + (remaining + 1))).filter
            fun page => index ≤ page ∧ bits.test page = false) =
          insert index ((Finset.range (index + 1 + remaining)).filter
            fun page => index + 1 ≤ page ∧ bits.test page = false) := by
        ext page
        simp only [Finset.mem_filter, Finset.mem_range, Finset.mem_insert]
        grind
      rw [if_neg taken, split, Finset.card_insert_of_notMem (by simp)]
      omega

/-- `MStat` counts the clear indices of the bitmap. -/
theorem mStat_eq (state : PageState width) :
    mStat state = (state.pageBitmap.clearBelow totalBitmap).card := by
  rw [mStat, mStatFrom_eq, BitArray.clearBelow]
  simp only [Nat.zero_add, Nat.zero_le, true_and]

end Unarddeg.Vmem
