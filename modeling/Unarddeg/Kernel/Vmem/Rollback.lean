import Unarddeg.Kernel.Vmem.Restored

/-!
# Running out of memory

`kalloc` of `kernel/vmem/alloc.c` when no page is left. `AllocatePage` panics itself and never
returns a null pointer, so the loop of `kalloc` that would free the pages it has taken is not
entered: they stay taken at the panic (`rollback_iff`).
-/

namespace Unarddeg.Vmem

open Library

section Rollback

variable {width : Nat} {memoryStart base size : BitVec width} {before stopped : PageState width}
  {reason : Stop}

/-- Every set index stays set. -/
def Grows (before after : PageState width) : Prop :=
  ∀ index, before.pageBitmap.test index = true → after.pageBitmap.test index = true

/-- Marking an index keeps the set ones. -/
theorem test_of_mark {bits : BitArray 8} {index found : Nat} (set : bits.test index = true) :
    (bits.mark found).test index = true := by
  rw [BitArray.test_mark (by decide), set, Bool.or_true]

/-- A page that is allocated leaves the set indices set. -/
theorem allocatePage_grows {page : BitVec width} {after : PageState width}
    (returned : allocatePage memoryStart before = .ok page after) : Grows before after := by
  intro index set
  obtain ⟨found, _, _, rfl⟩ := allocatePage_ok memoryStart before after page returned
  exact test_of_mark set

/-- `AllocatePage` runs out of memory when every index is set, and changes nothing. -/
theorem allocatePage_full (full : ∀ index < totalBitmap, before.pageBitmap.test index = true) :
    allocatePage memoryStart before = .error (.panic .ranOutOfMemory) before := by
  have none := getFreePage_full before full
  have panics : panicIf ((-1 : Int) = -1) .ranOutOfMemory before =
      .error (.panic .ranOutOfMemory) before := rfl
  rw [allocatePage, bind_of_ok none, bind_of_error panics]

/-- `AllocatePage` runs out of memory only when every index is set. -/
theorem allocatePage_ranOut (failed : allocatePage memoryStart before =
    .error (.panic .ranOutOfMemory) stopped) :
    (∀ index < totalBitmap, before.pageBitmap.test index = true) ∧ stopped = before := by
  rcases firstFree_or_full before.pageBitmap with ⟨found, first⟩ | full
  · have marks := getFreePage_first before first
    have inside : ∀ state : PageState width,
        panicIf ((found : Int) = -1) .ranOutOfMemory state = .ok () state := fun state =>
      panicIf_ok.mpr ⟨by omega, rfl⟩
    rw [allocatePage, bind_of_ok marks, bind_of_ok (inside _)] at failed
    rcases bind_error.mp failed with null | ⟨_, _, _, returns⟩
    · rcases bind_error.mp null with panics | ⟨_, _, _, clears⟩
      · unfold panicIf at panics
        split_ifs at panics <;> cases panics
      · cases clears
    · cases returns
  · rw [allocatePage_full full] at failed
    cases failed
    exact ⟨full, rfl⟩

/-- The loop of `kalloc` never frees a page that it has taken: where it runs out of memory, every
index that was set is still set. -/
theorem kallocRest_ranOut (remaining index : Nat) (failed : kallocRest memoryStart base remaining
    index before = .error (.panic .ranOutOfMemory) stopped) : Grows before stopped := by
  induction remaining generalizing index before with
  | zero => cases failed
  | succ remaining ih =>
    rcases bind_error.mp failed with none | ⟨page, middle, returned, rest⟩
    · obtain ⟨_, rfl⟩ := allocatePage_ranOut none
      intro index set
      exact set
    · rw [if_neg (allocatePage_notNull returned)] at rest
      have later := ih _ rest
      intro other set
      exact later other (allocatePage_grows returned other set)

/-- Without a free page `kalloc` runs out of memory at once. -/
theorem kalloc_full (nonzero : size ≠ 0)
    (full : ∀ index < totalBitmap, before.pageBitmap.test index = true) :
    kalloc memoryStart size before = .error (.panic .ranOutOfMemory) before := by
  rw [kalloc, if_neg nonzero, bind_of_error (allocatePage_full full)]

/-- `kalloc` stops where its loop does. -/
theorem kalloc_of_rest {middle : PageState width} (nonzero : size ≠ 0)
    (returned : allocatePage memoryStart before = .ok base middle)
    (stops : kallocRest memoryStart base (pagesFor (size + sizeofBlockHeader width) - 1) 1
      { middle with
        sizeAt := Function.update middle.sizeAt base (size + sizeofBlockHeader width) } =
        .error reason stopped) :
    kalloc memoryStart size before = .error reason stopped := by
  have checked : panicIf (base = 0) .ranOutOfMemory middle = .ok () middle :=
    panicIf_ok.mpr ⟨allocatePage_notNull returned, rfl⟩
  rw [kalloc, if_neg nonzero, bind_of_ok returned, bind_of_ok checked]
  apply bind_error.mpr
  exact .inr ⟨(), _, modify_ok.mpr rfl, bind_error.mpr (.inl stops)⟩

/-- The first page that `kalloc` takes stays taken when it runs out of memory. -/
theorem kalloc_keeps_first {found : Nat} (first : FirstFree before.pageBitmap found)
    (failed : kalloc memoryStart size before = .error (.panic .ranOutOfMemory) stopped) :
    stopped.pageBitmap.test found = true := by
  have nonzero : size ≠ 0 := by
    intro zero
    rw [kalloc, if_pos zero] at failed
    cases failed
  rw [kalloc, if_neg nonzero] at failed
  rcases bind_error.mp failed with none | ⟨page, middle, returned, rest⟩
  · obtain ⟨full, _⟩ := allocatePage_ranOut none
    cases (full found first.below).symm.trans first.free
  obtain ⟨taken, least, _, middleIs⟩ := allocatePage_ok memoryStart before middle page returned
  obtain rfl := first.unique least
  have checked : panicIf (page = 0) .ranOutOfMemory middle = .ok () middle :=
    panicIf_ok.mpr ⟨allocatePage_notNull returned, rfl⟩
  rw [bind_of_ok checked] at rest
  rcases bind_error.mp rest with header | ⟨_, written, writes, rest⟩
  · cases header
  obtain rfl := modify_ok.mp writes
  rcases bind_error.mp rest with loop | ⟨_, _, _, returns⟩
  · apply kallocRest_ranOut _ _ loop
    rw [middleIs, BitArray.test_mark (by decide)]
    simp
  · cases returns

/-- **Rollback.** When `kalloc` runs out of memory the bitmap is as it was before exactly when no
page was free then: pages that the call has taken stay taken. -/
theorem rollback_iff
    (failed : kalloc memoryStart size before = .error (.panic .ranOutOfMemory) stopped) :
    (∀ index, stopped.pageBitmap.test index = before.pageBitmap.test index) ↔
      ∀ index < totalBitmap, before.pageBitmap.test index = true := by
  constructor
  · intro same
    rcases firstFree_or_full before.pageBitmap with ⟨found, first⟩ | full
    · have clear := (same found).trans first.free
      cases (kalloc_keeps_first first failed).symm.trans clear
    · exact full
  · intro full index
    by_cases zero : size = 0
    · rw [kalloc, if_pos zero] at failed
      cases failed
    · rw [kalloc_full zero full] at failed
      cases failed
      rfl

end Rollback

/-- The bitmap with every page taken but the first ones. -/
def firstFree (word : BitVec 8) : PageState 64 where
  pageBitmap index := if index = 0 then word else 0xFF
  sizeAt _ := 0

/-- Behind its first eight indices the bitmap is set. -/
theorem firstFree_taken (word : BitVec 8) {index : Nat} (behind : 8 ≤ index) :
    (firstFree word).pageBitmap.test index = true := by
  have other : ¬ index / 8 = 0 := by omega
  have bit : ∀ position < 8, (0xFF : BitVec 8).getLsbD position = true := by decide
  rw [BitArray.test_eq (by decide)]
  simp only [firstFree, other, if_false]
  exact bit _ (Nat.mod_lt _ (by decide))

/-- Without a free page nothing is left behind. -/
theorem rollback_iff_full :
    (∀ index, (firstFree 0xFF).pageBitmap.test index = (firstFree 0xFF).pageBitmap.test index) ↔
      ∀ index < totalBitmap, (firstFree 0xFF).pageBitmap.test index = true := by
  have low : ∀ index < 8, (firstFree 0xFF).pageBitmap.test index = true := by decide
  have full : ∀ index < totalBitmap, (firstFree 0xFF).pageBitmap.test index = true := by
    intro index _
    by_cases small : index < 8
    · exact low index small
    · exact firstFree_taken _ (by omega)
  exact @rollback_iff 64 0x100000 1 (firstFree 0xFF) (firstFree 0xFF)
    (kalloc_full (by decide) full)

/-- With one free page a block of two pages leaves that page taken. -/
theorem page_left_taken :
    ¬ ∀ (memoryStart size : BitVec 64) (before stopped : PageState 64),
      kalloc memoryStart size before = .error (.panic .ranOutOfMemory) stopped →
      ∀ index, stopped.pageBitmap.test index = before.pageBitmap.test index := by
  intro claim
  have first : FirstFree (firstFree 0xFE).pageBitmap 0 :=
    ⟨by decide, by decide, fun earlier less => by omega⟩
  have notNull : pageAddress (0x100000 : BitVec 64) (0 : Nat) ≠ 0 := by decide
  obtain ⟨middle, returned, marked⟩ := allocatePage_first 0x100000 _ first notNull
  have low : ∀ index < 8, (0 : Nat) = index ∨ (firstFree 0xFE).pageBitmap.test index = true := by
    decide
  have full : ∀ index < totalBitmap, middle.pageBitmap.test index = true := by
    intro index _
    rw [marked]
    by_cases small : index < 8
    · rcases low index small with rfl | set
      · rw [BitArray.test_mark (by decide)]
        rfl
      · exact test_of_mark set
    · exact test_of_mark (firstFree_taken _ (by omega))
  have pages : pagesFor (5000 + sizeofBlockHeader 64) - 1 = 1 := by decide
  have failed := @kalloc_of_rest 64 0x100000 _ 5000 (firstFree 0xFE) _ _ middle (by decide) returned
    (by
      rw [pages]
      exact bind_error.mpr (.inl (allocatePage_full full)))
  have kept := kalloc_keeps_first first failed
  have clear := (claim _ _ _ _ failed 0).trans first.free
  cases kept.symm.trans clear

end Unarddeg.Vmem
