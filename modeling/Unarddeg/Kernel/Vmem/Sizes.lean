import Unarddeg.Kernel.Vmem.Rollback

/-!
# The sizes of blocks

`kalloc` and `kfree` of `kernel/vmem/alloc.c` on targets with 32 and 64-bit pointers, for every size
and every state of the bitmap. The number of pages is computed with two additions that may wrap, and
once more from the header when the block is freed; `kfree` frees adjacent pages whatever pages
`kalloc` has taken. The sizes are right exactly when no sum wraps, the pages are adjacent, and the
address of the first one is exact (`sizes_iff`).
-/

namespace Unarddeg.Vmem

open Library

section Sizes

variable {width : Nat}

/-- The pages that a call has marked. -/
def marked (before after : PageState width) : Finset Nat :=
  (Finset.range totalBitmap).filter fun index =>
    before.pageBitmap.test index = false ∧ after.pageBitmap.test index = true

/-- The pages that a call has released. -/
def released (before after : PageState width) : Finset Nat := marked after before

/-- The pages that a size and the header need. -/
def pagesOf (size : BitVec width) : Nat :=
  (size.toNat + (sizeofBlockHeader width).toNat + (pageSize - 1)) / pageSize

/-- A block that was allocated holds its size, and whenever its header and its pages are untouched
`kfree` releases as many pages as were marked. -/
def SizesRight (memoryStart size pointer : BitVec width) (before after : PageState width) : Prop :=
  size.toNat + (sizeofBlockHeader width).toNat ≤ (marked before after).card * pageSize ∧
    ∀ later : PageState width,
      later.sizeAt (pointer - sizeofBlockHeader width) =
          after.sizeAt (pointer - sizeofBlockHeader width) →
      (∀ index ∈ marked before after, later.pageBitmap.test index = true) →
      ∃ freed, kfree memoryStart pointer later = .ok () freed ∧
        (released later freed).card = (marked before after).card

/-- The offset of a page that `FreePage` takes back is exact. -/
def ExactOffset (width first : Nat) : Prop := width = 64 → first < exactPages

/-! ## Addresses -/

/-- The offset of a page: `PageIdx * PAGE_SIZE` as the target widens it. -/
def pageOffset (width : Nat) (index : Nat) : BitVec width :=
  (BitVec.ofInt 32 ((index : Int) * pageSize)).signExtend width

/-- The address of a page is its offset behind the memory. -/
theorem pageAddress_eq (memoryStart : BitVec width) (index : Nat) :
    pageAddress memoryStart index = memoryStart + pageOffset width index := rfl

/-- On a target with 32-bit pointers every offset is exact. -/
theorem offset_short {index : Nat} (below : index < totalBitmap) :
    (pageOffset 32 index).toNat = index * pageSize := by
  unfold totalBitmap at below
  unfold pageOffset BitVec.signExtend pageSize
  rw [BitVec.toInt_ofInt, BitVec.toNat_ofInt, Int.bmod_def]
  split <;> omega

/-- The offset of a page is exact, or 4 GiB below that at the end of the addresses. -/
theorem pageOffset_toNat (target : width = 32 ∨ width = 64) {index : Nat}
    (below : index < totalBitmap) :
    (ExactOffset width index ∧ (pageOffset width index).toNat = index * pageSize) ∨
      (¬ ExactOffset width index ∧ width = 64 ∧
        (pageOffset width index).toNat = 2 ^ 64 - 2 ^ 32 + index * pageSize) := by
  rcases target with rfl | rfl
  · exact .inl ⟨fun wide => by omega, offset_short below⟩
  · by_cases small : index < exactPages
    · exact .inl ⟨fun _ => small, offset_exact small⟩
    · exact .inr ⟨fun exact => small (exact rfl), rfl,
        offset_wrapped (Nat.le_of_not_lt small) below⟩

/-- The addresses of two pages are a page apart or more. -/
theorem pageAddress_far (target : width = 32 ∨ width = 64) (memoryStart : BitVec width)
    {left right : Nat} (leftBelow : left < totalBitmap) (rightBelow : right < totalBitmap)
    (different : left ≠ right) :
    ¬ (pageAddress memoryStart left - pageAddress memoryStart right).toNat < pageSize := by
  have difference : pageAddress memoryStart left - pageAddress memoryStart right =
      pageOffset width left - pageOffset width right := by
    rw [pageAddress_eq, pageAddress_eq, add_sub_add_left_eq_sub]
  have leftIs := pageOffset_toNat target leftBelow
  have rightIs := pageOffset_toNat target rightBelow
  rw [difference, BitVec.toNat_sub]
  unfold ExactOffset exactPages at leftIs rightIs
  unfold totalBitmap at leftBelow rightBelow
  unfold pageSize at *
  rcases target with rfl | rfl
  · omega
  · omega

/-- The index that `FreePage` computes for a page behind the first one of a block. -/
theorem pageIndex_behind (target : width = 32 ∨ width = 64) (memoryStart : BitVec width)
    {first offset : Nat} (below : first + offset < totalBitmap) :
    (ExactOffset width first → pageIndex memoryStart
        (pageAddress memoryStart first + BitVec.ofNat width (offset * pageSize)) =
          first + offset) ∧
      (¬ ExactOffset width first → totalBitmap ≤ pageIndex memoryStart
        (pageAddress memoryStart first + BitVec.ofNat width (offset * pageSize))) := by
  have offsetIs := pageOffset_toNat target (show first < totalBitmap by omega)
  have difference : pageAddress memoryStart first + BitVec.ofNat width (offset * pageSize) -
      memoryStart = pageOffset width first + BitVec.ofNat width (offset * pageSize) := by
    rw [pageAddress_eq, BitVec.add_assoc, add_sub_cancel_left]
  unfold pageIndex
  rw [difference, BitVec.toNat_add, BitVec.toNat_ofNat]
  unfold totalBitmap at *
  unfold pageSize at *
  rcases target with rfl | rfl
  · have exact : ExactOffset 32 first := fun wide => by omega
    refine ⟨fun _ => ?_, fun wraps => absurd exact wraps⟩
    rcases offsetIs with ⟨_, value⟩ | ⟨_, wide, _⟩
    · rw [value]
      omega
    · omega
  · rcases offsetIs with ⟨exact, value⟩ | ⟨wraps, _, value⟩
    · refine ⟨fun _ => ?_, fun wraps => absurd exact wraps⟩
      have small := exact rfl
      unfold exactPages at small
      rw [value]
      omega
    · refine ⟨fun exact => absurd exact wraps, fun _ => ?_⟩
      rw [value]
      omega

/-! ## What is marked -/

variable {memoryStart base size pointer : BitVec width}
  {before middle after later : PageState width} {found first : Nat}

/-- A marked page is clear before and set after. -/
theorem mem_marked {index : Nat} : index ∈ marked before after ↔
    index < totalBitmap ∧ before.pageBitmap.test index = false ∧
      after.pageBitmap.test index = true := by
  rw [marked, Finset.mem_filter, Finset.mem_range]

/-- Taking the first free page adds it to the pages that are marked later. -/
theorem marked_first (least : FirstFree before.pageBitmap found)
    (middleIs : middle.pageBitmap = before.pageBitmap.mark found) (grows : Grows middle after) :
    marked before after = insert found (marked middle after) ∧ found ∉ marked middle after := by
  have set : ∀ index, middle.pageBitmap.test index =
      (decide (index = found) || before.pageBitmap.test index) := by
    intro index
    rw [middleIs, BitArray.test_mark (by decide)]
  have here : middle.pageBitmap.test found = true := by
    rw [set, decide_eq_true rfl, Bool.true_or]
  constructor
  · ext index
    rw [Finset.mem_insert, mem_marked, mem_marked, set]
    by_cases same : index = found
    · subst same
      simp [least.below, least.free, grows _ here]
    · simp [same]
  · rw [mem_marked, here]
    simp

/-- The loop of `kalloc` marks as many pages as it has rounds, and leaves the headers of pages that
were set. -/
theorem kallocRest_marks (target : width = 32 ∨ width = 64) (remaining index : Nat)
    {result : Unit}
    (returned : kallocRest memoryStart base remaining index before = .ok result after) :
    Grows before after ∧ (marked before after).card = remaining ∧
      ∀ held < totalBitmap, before.pageBitmap.test held = true →
        after.sizeAt (pageAddress memoryStart held) =
          before.sizeAt (pageAddress memoryStart held) := by
  induction remaining generalizing index before with
  | zero =>
    obtain ⟨_, rfl⟩ := pure_ok.mp returned
    refine ⟨fun _ set => set, ?_, fun _ _ _ => rfl⟩
    have none : marked before before = ∅ := by
      apply Finset.filter_eq_empty_iff.mpr
      intro index _ both
      cases both.1.symm.trans both.2
    rw [none]
    rfl
  | succ remaining ih =>
    obtain ⟨page, middle, takes, rest⟩ := bind_ok.mp returned
    rw [if_neg (allocatePage_notNull takes)] at rest
    obtain ⟨laterGrows, count, headers⟩ := ih _ rest
    have grows := allocatePage_grows takes
    obtain ⟨found, least, pageIs, middleIs⟩ := allocatePage_ok memoryStart before middle page takes
    obtain ⟨split, fresh⟩ := marked_first least (congrArg PageState.pageBitmap middleIs) laterGrows
    refine ⟨fun index set => laterGrows index (grows index set), ?_, ?_⟩
    · rw [split, Finset.card_insert_of_notMem fresh, count]
    · intro held below set
      have apart : held ≠ found := by
        rintro rfl
        cases set.symm.trans least.free
      rw [headers held below (grows held set), middleIs, pageIs]
      exact if_neg (pageAddress_far target memoryStart below least.below apart)

/-- What `kalloc` does, whatever pages are free: it returns the first free page, marks as many pages
as it has computed, at least one, and leaves the total size in the header. -/
theorem kalloc_marks (target : width = 32 ∨ width = 64)
    (returned : kalloc memoryStart size before = .ok pointer after) (notNull : pointer ≠ 0) :
    ∃ first, FirstFree before.pageBitmap first ∧
      pointer = pageAddress memoryStart first + sizeofBlockHeader width ∧
      (marked before after).card = pagesFor (size + sizeofBlockHeader width) - 1 + 1 ∧
      after.sizeAt (pageAddress memoryStart first) = size + sizeofBlockHeader width := by
  have nonzero : size ≠ 0 := by
    intro zero
    rw [kalloc, if_pos zero] at returned
    exact notNull (pure_ok.mp returned).1.symm
  rw [kalloc, if_neg nonzero] at returned
  simp only [bind_ok, panicIf_ok, modify_ok, pure_ok] at returned
  obtain ⟨page, middle, takes, _, _, ⟨_, rfl⟩, _, _, rfl, _, last, rest, rfl, rfl⟩ := returned
  obtain ⟨first, least, pageIs, middleIs⟩ := allocatePage_ok memoryStart before middle page takes
  obtain ⟨grows, count, headers⟩ := kallocRest_marks target _ _ rest
  have bits : middle.pageBitmap = before.pageBitmap.mark first :=
    congrArg PageState.pageBitmap middleIs
  have written : ∀ sizes : BitVec width → BitVec width,
      marked ⟨middle.pageBitmap, sizes⟩ last = marked middle last := fun _ => rfl
  obtain ⟨split, fresh⟩ := @marked_first width before middle last first least bits grows
  refine ⟨first, least, by rw [pageIs], ?_, ?_⟩
  · rw [split, Finset.card_insert_of_notMem fresh, ← written, count]
  · have set : middle.pageBitmap.test first = true := by
      rw [bits, BitArray.test_mark (by decide)]
      simp
    rw [headers first least.below set, pageIs]
    exact Function.update_self ..

/-- In a run of free pages `kalloc` marks the run. -/
theorem kalloc_marks_run {count : Nat} (run : FreeRun before.pageBitmap first (count + 1))
    (counted : pagesFor (size + sizeofBlockHeader width) = count + 1)
    (returned : kalloc memoryStart size before = .ok pointer after) (notNull : pointer ≠ 0) :
    after.pageBitmap = markRange before.pageBitmap first (count + 1) := by
  have nonzero : size ≠ 0 := by
    intro zero
    rw [kalloc, if_pos zero] at returned
    exact notNull (pure_ok.mp returned).1.symm
  rw [kalloc, if_neg nonzero] at returned
  simp only [counted, Nat.add_sub_cancel, bind_ok, panicIf_ok, modify_ok, pure_ok] at returned
  obtain ⟨page, middle, takes, _, _, ⟨_, rfl⟩, _, _, rfl, _, last, rest, rfl, rfl⟩ := returned
  obtain ⟨found, least, _, rfl⟩ := allocatePage_ok memoryStart before middle page takes
  obtain rfl := least.unique run.start
  have tail : FreeRun (before.pageBitmap.mark found) (found + 1) count ∨ count = 0 := by
    cases count with
    | zero => exact .inr rfl
    | succ count => exact .inl run.tail
  exact (kallocRest_ok _ _ _ _ _ tail rest).1

/-! ## What is released -/

/-- The loop of `kfree` clears the indices that `FreePage` computes, and nothing else. -/
theorem freePages_clears (remaining index : Nat) (before : PageState width) :
    ∃ freed, freePages memoryStart base remaining index before = .ok () freed ∧
      ∀ page, freed.pageBitmap.test page = true ↔ before.pageBitmap.test page = true ∧
        ∀ offset, index ≤ offset → offset < index + remaining →
          pageIndex memoryStart (base + BitVec.ofNat width (offset * pageSize)) ≠ page := by
  induction remaining generalizing index before with
  | zero =>
    refine ⟨before, rfl, fun page => ⟨fun set => ⟨set, fun offset from_ below => ?_⟩, And.left⟩⟩
    omega
  | succ remaining ih =>
    obtain ⟨freed, returned, clears⟩ := ih (index + 1) { before with
      pageBitmap := before.pageBitmap.clear
        (pageIndex memoryStart (base + BitVec.ofNat width (index * pageSize))) }
    refine ⟨freed, bind_ok.mpr ⟨(), _, modify_ok.mpr rfl, returned⟩, fun page => ?_⟩
    rw [clears]
    dsimp only
    rw [BitArray.test_clear (by decide), Bool.and_eq_true, Bool.not_eq_true',
      decide_eq_false_iff_not]
    constructor
    · intro ⟨⟨other, set⟩, apart⟩
      refine ⟨set, fun offset from_ below => ?_⟩
      by_cases here : offset = index
      · rw [here]
        exact fun same => other same.symm
      · exact apart offset (by omega) (by omega)
    · intro ⟨set, apart⟩
      refine ⟨⟨fun same => apart index le_rfl (by omega) same.symm, set⟩, ?_⟩
      intro offset from_ below
      exact apart offset (by omega) (by omega)

/-- `kfree` releases the set pages of those that it counts from the first one on, or none of the
bitmap when the address of the first one is not exact. -/
theorem kfree_releases (target : width = 32 ∨ width = 64) {pages : Nat}
    (pointerIs : pointer = pageAddress memoryStart first + sizeofBlockHeader width)
    (notNull : pointer ≠ 0) (inside : first + pages ≤ totalBitmap)
    (counted : pagesFor (later.sizeAt (pageAddress memoryStart first)) = pages) :
    ∃ freed, kfree memoryStart pointer later = .ok () freed ∧
      (ExactOffset width first → released later freed =
        (Finset.Ico first (first + pages)).filter fun page =>
          later.pageBitmap.test page = true) ∧
      (¬ ExactOffset width first → released later freed = ∅) := by
  have start : pointer - sizeofBlockHeader width = pageAddress memoryStart first := by
    rw [pointerIs, BitVec.add_sub_cancel]
  obtain ⟨freed, returned, clears⟩ :=
    @freePages_clears width memoryStart (pageAddress memoryStart first) pages 0 later
  have checked : panicIf (pointer = 0) .nullPointerDereference later = .ok () later :=
    panicIf_ok.mpr ⟨notNull, rfl⟩
  refine ⟨freed, ?_, fun exact => ?_, fun wraps => ?_⟩
  · rw [kfree, bind_of_ok checked]
    refine bind_ok.mpr ⟨later, later, get_ok.mpr ⟨rfl, rfl⟩, ?_⟩
    rw [start, counted]
    exact returned
  · ext page
    rw [released, mem_marked, Finset.mem_filter, Finset.mem_Ico, ← Bool.not_eq_true, clears]
    constructor
    · rintro ⟨_, cleared, set⟩
      refine ⟨?_, set⟩
      by_contra outside
      apply cleared
      refine ⟨set, fun offset _ below same => outside ?_⟩
      have index := (pageIndex_behind target memoryStart
        (show first + offset < totalBitmap by omega)).1 exact
      omega
    · rintro ⟨⟨from_, below⟩, set⟩
      refine ⟨by omega, fun kept => ?_, set⟩
      have index := (pageIndex_behind target memoryStart
        (show first + (page - first) < totalBitmap by omega)).1 exact
      apply kept.2 (page - first) (Nat.zero_le _) (by omega)
      omega
  · apply Finset.eq_empty_of_forall_notMem
    intro page member
    obtain ⟨below, cleared, set⟩ := mem_marked.mp member
    rw [← Bool.not_eq_true, clears] at cleared
    apply cleared
    refine ⟨set, fun offset _ small same => ?_⟩
    have index := (pageIndex_behind target memoryStart
      (show first + offset < totalBitmap by omega)).2 wraps
    omega

/-! ## Sizes -/

/-- The header has eight or sixteen bytes. -/
theorem header_small (target : width = 32 ∨ width = 64) :
    0 < (sizeofBlockHeader width).toNat ∧ (sizeofBlockHeader width).toNat ≤ 16 := by
  rcases target with rfl | rfl
  · exact ⟨by decide, by decide⟩
  · exact ⟨by decide, by decide⟩

/-- `kalloc` divides the sum of a size, the header and a page less one byte, as a `size_t`. -/
theorem pagesFor_mod (target : width = 32 ∨ width = 64) (size : BitVec width) :
    pagesFor (size + sizeofBlockHeader width) =
      (size.toNat + (sizeofBlockHeader width).toNat + (pageSize - 1)) % 2 ^ width / pageSize := by
  unfold pagesFor pageSize
  congr 1
  rcases target with rfl | rfl
  · have one : (1 : BitVec 32).toNat = 1 := rfl
    rw [BitVec.toNat_sub, BitVec.toNat_add, BitVec.toNat_add, one, BitVec.toNat_ofNat]
    omega
  · have one : (1 : BitVec 64).toNat = 1 := rfl
    rw [BitVec.toNat_sub, BitVec.toNat_add, BitVec.toNat_add, one, BitVec.toNat_ofNat]
    omega

/-- Where no sum wraps `kalloc` computes the pages of a size. -/
theorem pagesFor_exact (target : width = 32 ∨ width = 64)
    (exact : size.toNat + (sizeofBlockHeader width).toNat + (pageSize - 1) < 2 ^ width) :
    pagesFor (size + sizeofBlockHeader width) = pagesOf size := by
  rw [pagesFor_mod target, Nat.mod_eq_of_lt exact, pagesOf]

/-- Where a sum wraps `kalloc` computes one page at most, and the size needs more. -/
theorem pagesFor_wrapped (target : width = 32 ∨ width = 64)
    (wraps : ¬ size.toNat + (sizeofBlockHeader width).toNat + (pageSize - 1) < 2 ^ width) :
    pagesFor (size + sizeofBlockHeader width) ≤ 1 ∧
      pageSize < size.toNat + (sizeofBlockHeader width).toNat := by
  obtain ⟨_, small⟩ := header_small target
  have bound := size.isLt
  rw [pagesFor_mod target]
  unfold pageSize at *
  rcases target with rfl | rfl
  · omega
  · omega

/-- The pages of a size hold it with its header, and there is one. -/
theorem pagesOf_hold (target : width = 32 ∨ width = 64) (size : BitVec width) :
    size.toNat + (sizeofBlockHeader width).toNat ≤ pagesOf size * pageSize ∧
      0 < pagesOf size := by
  obtain ⟨header, _⟩ := header_small target
  unfold pagesOf pageSize
  omega

/-- The pages that are marked from the first free one on end in the bitmap. -/
theorem marked_inside (least : FirstFree before.pageBitmap first) :
    first + (marked before after).card ≤ totalBitmap := by
  have subset : marked before after ⊆ Finset.Ico first totalBitmap := by
    intro index member
    obtain ⟨below, clear, _⟩ := mem_marked.mp member
    apply Finset.mem_Ico.mpr
    refine ⟨?_, below⟩
    by_contra less
    cases (least.least index (by omega)).symm.trans clear
  have few := Finset.card_le_card subset
  rw [Nat.card_Ico] at few
  have below := least.below
  omega

/-- A block whose marked pages hold its size is one for which no sum wrapped. -/
theorem exact_of_holds (target : width = 32 ∨ width = 64)
    (count : (marked before after).card = pagesFor (size + sizeofBlockHeader width) - 1 + 1)
    (holds : size.toNat + (sizeofBlockHeader width).toNat ≤
      (marked before after).card * pageSize) :
    size.toNat + (sizeofBlockHeader width).toNat + (pageSize - 1) < 2 ^ width := by
  by_contra wraps
  obtain ⟨few, large⟩ := pagesFor_wrapped target wraps
  have one : (marked before after).card = 1 := by omega
  rw [one] at holds
  omega

/-- What a `kfree` that returned has released. -/
theorem released_eq (target : width = 32 ∨ width = 64) {pages : Nat} {freed : PageState width}
    (pointerIs : pointer = pageAddress memoryStart first + sizeofBlockHeader width)
    (notNull : pointer ≠ 0) (inside : first + pages ≤ totalBitmap)
    (counted : pagesFor (later.sizeAt (pageAddress memoryStart first)) = pages)
    (frees : kfree memoryStart pointer later = .ok () freed) :
    (ExactOffset width first → released later freed =
        (Finset.Ico first (first + pages)).filter fun page =>
          later.pageBitmap.test page = true) ∧
      (¬ ExactOffset width first → released later freed = ∅) := by
  obtain ⟨again, freesAgain, releases⟩ :=
    kfree_releases target pointerIs notNull inside counted
  obtain rfl : freed = again := by
    rw [frees] at freesAgain
    cases freesAgain
    rfl
  exact releases

/-- The pages from the first one on are free before they are allocated, if `kfree` releases so many
after each change of other pages. -/
theorem free_of_releases (target : width = 32 ∨ width = 64) {pages : Nat}
    (pointerIs : pointer = pageAddress memoryStart first + sizeofBlockHeader width)
    (notNull : pointer ≠ 0) (inside : first + pages ≤ totalBitmap)
    (counted : pagesFor (after.sizeAt (pageAddress memoryStart first)) = pages)
    (offset : ExactOffset width first)
    (releases : ∀ later : PageState width,
      later.sizeAt (pageAddress memoryStart first) = after.sizeAt (pageAddress memoryStart first) →
      (∀ index ∈ marked before after, later.pageBitmap.test index = true) →
      ∃ freed, kfree memoryStart pointer later = .ok () freed ∧
        (released later freed).card = pages)
    {place : Nat} (small : place < pages) : before.pageBitmap.test (first + place) = false := by
  by_contra taken
  -- A page of the run that was not marked may be free again when the block is freed.
  have set : before.pageBitmap.test (first + place) = true := by
    simpa using taken
  let later : PageState width :=
    { after with pageBitmap := after.pageBitmap.clear (first + place) }
  have untouched : ∀ index ∈ marked before after, later.pageBitmap.test index = true := by
    intro index member
    obtain ⟨_, clear, isSet⟩ := mem_marked.mp member
    have apart : index ≠ first + place := by
      rintro rfl
      cases set.symm.trans clear
    change (after.pageBitmap.clear (first + place)).test index = true
    rw [BitArray.test_clear (by decide), isSet, decide_eq_false apart]
    rfl
  obtain ⟨freed, frees, all⟩ := releases later rfl untouched
  have run := (@released_eq width memoryStart pointer later first target _ freed pointerIs notNull
    inside counted frees).1 offset
  have fewer : released later freed ⊆
      (Finset.Ico first (first + pages)).erase (first + place) := by
    rw [run]
    intro page member
    obtain ⟨range, isSet⟩ := Finset.mem_filter.mp member
    apply Finset.mem_erase.mpr
    refine ⟨?_, range⟩
    rintro rfl
    change (after.pageBitmap.clear (first + place)).test (first + place) = true at isSet
    rw [BitArray.test_clear (by decide)] at isSet
    simp at isSet
  have bound := Finset.card_le_card fewer
  rw [Finset.card_erase_of_mem (Finset.mem_Ico.mpr ⟨by omega, by omega⟩), Nat.card_Ico,
    all] at bound
  omega

/-- The pages of a block that is a run are all marked. -/
theorem run_marked {pages : Nat} (run : FreeRun before.pageBitmap first pages)
    (bits : after.pageBitmap = markRange before.pageBitmap first pages) {page : Nat}
    (inside : page ∈ Finset.Ico first (first + pages)) : page ∈ marked before after := by
  obtain ⟨from_, below⟩ := Finset.mem_Ico.mp inside
  have clear := run.free (page - first) (by omega)
  rw [Nat.add_sub_cancel' from_] at clear
  have bound := run.inside
  refine mem_marked.mpr ⟨by omega, clear, ?_⟩
  rw [bits, test_markRange, decide_eq_true ⟨from_, below⟩, Bool.true_or]

/-- **Sizes.** Of a block that `kalloc` returned the marked pages hold the size with its header, and
`kfree` releases as many of them, exactly when no sum of the size wraps, the pages are a run of free
ones, and the offset of the first one is an `int`. -/
theorem sizes_iff (target : width = 32 ∨ width = 64)
    (returned : kalloc memoryStart size before = .ok pointer after) (notNull : pointer ≠ 0) :
    SizesRight memoryStart size pointer before after ↔
      size.toNat + (sizeofBlockHeader width).toNat + (pageSize - 1) < 2 ^ width ∧
        ∃ first, FreeRun before.pageBitmap first (pagesOf size) ∧ ExactOffset width first := by
  obtain ⟨first, least, pointerIs, count, header⟩ := kalloc_marks target returned notNull
  have start : pointer - sizeofBlockHeader width = pageAddress memoryStart first := by
    rw [pointerIs, BitVec.add_sub_cancel]
  have inside := @marked_inside width before after first least
  obtain ⟨holds, some⟩ := pagesOf_hold target size
  constructor
  · intro ⟨enough, releases⟩
    have exact := exact_of_holds target count enough
    rw [pagesFor_exact target exact, Nat.sub_add_cancel some] at count
    rw [count] at inside releases
    rw [start] at releases
    have counted : pagesFor (after.sizeAt (pageAddress memoryStart first)) = pagesOf size := by
      rw [header, pagesFor_exact target exact]
    have offset : ExactOffset width first := by
      obtain ⟨freed, frees, all⟩ :=
        releases after rfl fun index member => (mem_marked.mp member).2.2
      by_contra wraps
      rw [(released_eq target pointerIs notNull inside counted frees).2 wraps,
        Finset.card_empty] at all
      omega
    have free : ∀ place < pagesOf size, before.pageBitmap.test (first + place) = false :=
      fun place small =>
        free_of_releases target pointerIs notNull inside counted offset releases small
    exact ⟨exact, first, ⟨least, inside, free⟩, offset⟩
  · intro ⟨exact, other, run, offset⟩
    obtain rfl := least.unique run.start
    rw [pagesFor_exact target exact, Nat.sub_add_cancel some] at count
    refine ⟨by rw [count]; exact holds, fun later same untouched => ?_⟩
    rw [start, header] at same
    obtain ⟨freed, frees, releases, _⟩ :=
      @kfree_releases width memoryStart pointer later first target _ pointerIs notNull run.inside
        (by rw [same, pagesFor_exact target exact])
    refine ⟨freed, frees, ?_⟩
    obtain ⟨pages, counted⟩ : ∃ pages, pagesOf size = pages + 1 :=
      ⟨_, (Nat.sub_add_cancel some).symm⟩
    have bits : after.pageBitmap = markRange before.pageBitmap first (pagesOf size) := by
      rw [counted]
      exact kalloc_marks_run (by rwa [counted] at run)
        (by rw [pagesFor_exact target exact, counted]) returned notNull
    have all : (Finset.Ico first (first + pagesOf size)).filter
        (fun page => later.pageBitmap.test page = true) =
          Finset.Ico first (first + pagesOf size) :=
      Finset.filter_true_of_mem fun page member => untouched page (run_marked run bits member)
    rw [releases offset, all, Nat.card_Ico, count]
    omega

/-- A block of one page is the first free one. -/
theorem kalloc_one (nonzero : size ≠ 0)
    (one : pagesFor (size + sizeofBlockHeader width) - 1 = 0)
    (least : FirstFree before.pageBitmap first) (notNull : pageAddress memoryStart first ≠ 0) :
    ∃ after, kalloc memoryStart size before =
      .ok (pageAddress memoryStart first + sizeofBlockHeader width) after := by
  obtain ⟨middle, takes, _⟩ := allocatePage_first memoryStart before least notNull
  have checked : panicIf (pageAddress memoryStart first = 0) .ranOutOfMemory middle =
      .ok () middle := panicIf_ok.mpr ⟨notNull, rfl⟩
  rw [kalloc, if_neg nonzero, bind_of_ok takes, bind_of_ok checked, one]
  exact ⟨_, rfl⟩

end Sizes

/-- With its first pages free the bitmap has a free page. -/
theorem firstFree_zero : FirstFree (firstFree 0).pageBitmap 0 :=
  ⟨by decide, by decide, fun earlier less => by omega⟩

/-- The sizes of a block of one byte are right. -/
theorem sizes_iff_sample : ∃ after, kalloc 0x100000 1 (firstFree 0) =
      .ok (pageAddress 0x100000 (0 : Nat) + sizeofBlockHeader 64) after ∧
    SizesRight 0x100000 1 (pageAddress 0x100000 (0 : Nat) + sizeofBlockHeader 64) (firstFree 0)
      after := by
  obtain ⟨after, returned⟩ := @kalloc_one 64 0x100000 1 (firstFree 0) 0 (by decide) (by decide)
    firstFree_zero (by decide)
  have run : FreeRun (firstFree 0).pageBitmap 0 (pagesOf (1 : BitVec 64)) := by
    refine ⟨firstFree_zero, by decide, ?_⟩
    decide
  exact ⟨after, returned, (sizes_iff (.inr rfl) returned (by decide)).mpr
    ⟨by decide, 0, run, fun _ => by decide⟩⟩

/-- The largest size is answered with one page. -/
theorem largest_size_cut :
    ¬ ∀ (memoryStart size pointer : BitVec 64) (before after : PageState 64),
      kalloc memoryStart size before = .ok pointer after → pointer ≠ 0 →
      SizesRight memoryStart size pointer before after := by
  intro claim
  obtain ⟨after, returned⟩ := @kalloc_one 64 0x100000 (BitVec.allOnes 64) (firstFree 0) 0
    (by decide) (by decide) firstFree_zero (by decide)
  obtain ⟨enough, _⟩ := claim _ _ _ _ _ returned (by decide)
  obtain ⟨_, _, _, count, _⟩ := kalloc_marks (.inr rfl) returned (by decide)
  have one : pagesFor (BitVec.allOnes 64 + sizeofBlockHeader 64) - 1 + 1 = 1 := by decide
  rw [count, one] at enough
  exact absurd enough (by decide)

end Unarddeg.Vmem
