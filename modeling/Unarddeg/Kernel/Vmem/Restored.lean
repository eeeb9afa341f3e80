import Unarddeg.Kernel.Vmem.Alloc

/-!
# A page allocated and freed

`AllocatePage` and `FreePage` of `kernel/vmem/bitmap.c` on a target with 64-bit pointers.
`AllocatePage` multiplies an `int` index by the `int` constant `PAGE_SIZE`; `FreePage` divides a
`size_t` difference. The two agree on an index exactly when the product is an `int` and the sum
with `MemoryStart` is an address.
-/

namespace Unarddeg.Vmem

open Library

/-- The law of a page that is allocated and freed again, from a given state. -/
def RestoresPage (memoryStart : BitVec 64) (before : PageState 64) : Prop :=
  ∃ index page allocated freed,
    allocatePage memoryStart before = .ok page allocated ∧
    index < totalBitmap ∧
    before.pageBitmap.test index = false ∧
    allocated.pageBitmap = before.pageBitmap.mark index ∧
    memoryStart ≤ page ∧
    page.toNat = memoryStart.toNat + index * pageSize ∧
    freePage memoryStart page allocated = .ok () freed ∧
    freed.pageBitmap = allocated.pageBitmap.clear index ∧
    ∀ other < totalBitmap, freed.pageBitmap.test other = before.pageBitmap.test other

/-- The number of pages whose offset is an `int`. -/
def exactPages : Nat := 2 ^ 19

/-- The page of an index has an address that `AllocatePage` computes: its offset is an `int`, the
address does not wrap, and it is not null. -/
structure ExactPage (memoryStart : BitVec 64) (index : Nat) : Prop where
  /-- The product `PageIdx * PAGE_SIZE` does not overflow. -/
  offset : index < exactPages
  /-- The sum with `MemoryStart` does not wrap. -/
  inside : memoryStart.toNat + index * pageSize < 2 ^ 64
  /-- The sum is not the null pointer, which `memset` rejects. -/
  notNull : memoryStart.toNat + index * pageSize ≠ 0

/-- The offset of a page whose product is an `int`. -/
theorem offset_exact {index : Nat} (small : index < exactPages) :
    ((BitVec.ofInt 32 ((index : Int) * pageSize)).signExtend 64).toNat = index * pageSize := by
  unfold exactPages at small
  unfold BitVec.signExtend pageSize
  rw [BitVec.toInt_ofInt, BitVec.toNat_ofInt, Int.bmod_def]
  split <;> omega

/-- The offset of a page whose product overflows: 4 GiB below the exact one. -/
theorem offset_wrapped {index : Nat} (large : exactPages ≤ index) (below : index < totalBitmap) :
    ((BitVec.ofInt 32 ((index : Int) * pageSize)).signExtend 64).toNat =
      2 ^ 64 - 2 ^ 32 + index * pageSize := by
  unfold exactPages at large
  unfold totalBitmap at below
  unfold BitVec.signExtend pageSize
  rw [BitVec.toInt_ofInt, BitVec.toNat_ofInt, Int.bmod_def]
  split <;> omega

/-- The computed address is the exact one exactly when neither the product nor the sum wraps. -/
theorem pageAddress_exact_iff {memoryStart : BitVec 64} {index : Nat}
    (below : index < totalBitmap) :
    (pageAddress memoryStart index).toNat = memoryStart.toNat + index * pageSize ↔
      index < exactPages ∧ memoryStart.toNat + index * pageSize < 2 ^ 64 := by
  unfold pageAddress
  rw [BitVec.toNat_add]
  have start := memoryStart.isLt
  constructor
  · intro exact
    have inside : memoryStart.toNat + index * pageSize < 2 ^ 64 := by
      rw [← exact]
      exact Nat.mod_lt _ (by decide)
    refine ⟨?_, inside⟩
    by_contra large
    rw [offset_wrapped (Nat.le_of_not_lt large) below] at exact
    unfold pageSize totalBitmap at *
    omega
  · rintro ⟨small, inside⟩
    rw [offset_exact small]
    exact Nat.mod_eq_of_lt inside

/-- `FreePage` finds the index of an exact address. -/
theorem pageIndex_exact {memoryStart page : BitVec 64} {index : Nat}
    (exact : page.toNat = memoryStart.toNat + index * pageSize) :
    pageIndex memoryStart page = index := by
  have start := memoryStart.isLt
  have bound := page.isLt
  have positive : 0 < pageSize := by decide
  unfold pageIndex
  rw [BitVec.toNat_sub, exact]
  have whole : 2 ^ 64 - memoryStart.toNat + (memoryStart.toNat + index * pageSize) =
      index * pageSize + 2 ^ 64 := by omega
  rw [whole, Nat.add_mod_right, Nat.mod_eq_of_lt (by omega), Nat.mul_div_cancel _ positive]

/-- The scan from an index marks the first clear index behind it. -/
theorem getFreePageFrom_first {width : Nat} (before : PageState width) {found : Nat}
    (free : before.pageBitmap.test found = false)
    (remaining index : Nat) (reached : index ≤ found) (room : found < index + remaining)
    (taken : ∀ earlier, index ≤ earlier → earlier < found →
      before.pageBitmap.test earlier = true) :
    getFreePageFrom remaining index before =
      .ok (found : Int) { before with pageBitmap := before.pageBitmap.mark found } := by
  induction remaining generalizing index with
  | zero => omega
  | succ remaining ih =>
    apply bind_ok.mpr
    refine ⟨before, before, get_ok.mpr ⟨rfl, rfl⟩, ?_⟩
    by_cases here : index = found
    · subst here
      rw [free]
      rfl
    · rw [taken index le_rfl (by omega)]
      apply ih
      · omega
      · omega
      · intro earlier from_ less
        exact taken earlier (by omega) less

/-- `GetFreePage` marks the first free index. -/
theorem getFreePage_first {width : Nat} (before : PageState width) {found : Nat}
    (first : FirstFree before.pageBitmap found) :
    getFreePage before =
      .ok (found : Int) { before with pageBitmap := before.pageBitmap.mark found } := by
  apply getFreePageFrom_first before first.free
  · exact Nat.zero_le _
  · have := first.below
    omega
  · intro earlier _ less
    exact first.least earlier less

/-- A scan of set indices returns `-1` and changes nothing. -/
theorem getFreePageFrom_full {width : Nat} (before : PageState width) (remaining index : Nat)
    (taken : ∀ page, index ≤ page → page < index + remaining →
      before.pageBitmap.test page = true) :
    getFreePageFrom remaining index before = .ok (-1) before := by
  induction remaining generalizing index with
  | zero => rfl
  | succ remaining ih =>
    apply bind_ok.mpr
    refine ⟨before, before, get_ok.mpr ⟨rfl, rfl⟩, ?_⟩
    rw [taken index le_rfl (by omega)]
    apply ih
    intro page from_ less
    exact taken page (by omega) (by omega)

/-- `GetFreePage` returns `-1` when every index is set, and changes nothing. -/
theorem getFreePage_full {width : Nat} (before : PageState width)
    (full : ∀ index < totalBitmap, before.pageBitmap.test index = true) :
    getFreePage before = .ok (-1) before := by
  apply getFreePageFrom_full
  intro page _ less
  exact full page (by omega)

/-- There is a first free index unless every index is set. -/
theorem firstFree_or_full (bits : BitArray 8) :
    (∃ index, FirstFree bits index) ∨ ∀ index < totalBitmap, bits.test index = true := by
  by_cases full : ∀ index < totalBitmap, bits.test index = true
  · exact .inr full
  · left
    push Not at full
    classical
    obtain ⟨below, free⟩ := Nat.find_spec full
    refine ⟨Nat.find full, below, Bool.eq_false_iff.mpr free, ?_⟩
    intro earlier less
    by_contra clear
    exact Nat.find_min full less ⟨Nat.lt_trans less below, clear⟩

/-- `AllocatePage` returns the address of the first free page when that is not null. -/
theorem allocatePage_first {width : Nat} (memoryStart : BitVec width) (before : PageState width)
    {found : Nat} (first : FirstFree before.pageBitmap found)
    (notNull : pageAddress memoryStart found ≠ 0) :
    ∃ allocated, allocatePage memoryStart before = .ok (pageAddress memoryStart found) allocated ∧
      allocated.pageBitmap = before.pageBitmap.mark found := by
  have index : ¬ (found : Int) = -1 := by omega
  have returned : ∃ allocated,
      allocatePage memoryStart before = .ok (pageAddress memoryStart found) allocated := by
    unfold allocatePage memsetPage
    simp only [bind_ok, panicIf_ok, modify_ok, pure_ok]
    exact ⟨_, found, _, getFreePage_first before first, (), _, ⟨index, rfl⟩, (), _,
      ⟨(), _, ⟨notNull, rfl⟩, rfl⟩, rfl, rfl⟩
  obtain ⟨allocated, returned⟩ := returned
  refine ⟨allocated, returned, ?_⟩
  obtain ⟨again, same, _, rfl⟩ := allocatePage_ok memoryStart before allocated _ returned
  rw [first.unique same]

/-- A page that `AllocatePage` returns is not null. -/
theorem allocatePage_notNull {width : Nat} {memoryStart page : BitVec width}
    {before after : PageState width}
    (returned : allocatePage memoryStart before = .ok page after) : page ≠ 0 := by
  unfold allocatePage memsetPage at returned
  simp only [bind_ok, panicIf_ok, pure_ok] at returned
  obtain ⟨_, _, _, _, _, _, _, _, ⟨_, _, ⟨notNull, _⟩, _⟩, rfl, _⟩ := returned
  exact notNull

/-- An index that two marks of one bitmap set, and that was clear, is the same. -/
theorem mark_inj {bits : BitArray 8} {left right : Nat} (free : bits.test left = false)
    (same : bits.mark right = bits.mark left) : left = right := by
  have set : (bits.mark right).test left = true := by
    rw [same, BitArray.test_mark (by decide)]
    simp
  rw [BitArray.test_mark (by decide), free] at set
  simpa using set

/-- Marking a clear index and clearing it again changes no index. -/
theorem test_clear_mark (bits : BitArray 8) {index : Nat} (free : bits.test index = false)
    (other : Nat) : ((bits.mark index).clear index).test other = bits.test other := by
  rw [BitArray.test_clear (by decide), BitArray.test_mark (by decide)]
  by_cases same : other = index
  · subst same
    simp [free]
  · simp [same]

/-- A page is allocated at its exact address and freed without trace exactly when the first free
page has an address that `AllocatePage` computes. -/
theorem page_restored_iff (memoryStart : BitVec 64) (before : PageState 64) :
    RestoresPage memoryStart before ↔
      ∃ index, FirstFree before.pageBitmap index ∧ ExactPage memoryStart index := by
  constructor
  · rintro ⟨index, page, allocated, freed, returned, below, clear, marked, _, exact, _⟩
    have notNull := allocatePage_notNull returned
    obtain ⟨first, least, rfl, rfl⟩ := allocatePage_ok memoryStart before allocated page returned
    obtain rfl := mark_inj clear marked
    obtain ⟨small, inside⟩ := (pageAddress_exact_iff below).mp exact
    refine ⟨index, least, small, inside, ?_⟩
    rw [← exact]
    intro zero
    exact notNull (BitVec.eq_of_toNat_eq zero)
  · rintro ⟨index, first, offset, inside, notNull⟩
    have exact := (pageAddress_exact_iff first.below).mpr ⟨offset, inside⟩
    have address : pageAddress memoryStart index ≠ 0 := by
      intro null
      rw [null] at exact
      exact notNull exact.symm
    obtain ⟨allocated, returned, marked⟩ := allocatePage_first memoryStart before first address
    refine ⟨index, _, allocated, _, returned, first.below, first.free, marked, ?_, exact, rfl,
      ?_, ?_⟩
    · rw [BitVec.le_def, exact]
      exact Nat.le_add_right _ _
    · simp only [pageIndex_exact exact]
    · intro other _
      simp only [pageIndex_exact exact, marked]
      exact test_clear_mark _ first.free other

/-- The bitmap whose first pages, those below 2 GiB, are taken. -/
def lowPagesTaken : PageState 64 where
  pageBitmap word := if word < 65536 then 0xFF else 0
  sizeAt _ := 0

/-- The first free page of that bitmap. -/
theorem lowPagesTaken_first : FirstFree lowPagesTaken.pageBitmap exactPages where
  below := by decide
  free := by decide
  least := by
    intro earlier less
    have word : earlier / 8 < 65536 := by
      unfold exactPages at less
      omega
    rw [BitArray.test_eq (by decide)]
    simp only [lowPagesTaken, word, if_true]
    have bit : ∀ position < 8, (0xFF : BitVec 8).getLsbD position = true := by decide
    exact bit _ (Nat.mod_lt _ (by decide))

/-- With 2 GiB taken the next page lies below `MemoryStart`. -/
theorem page_below_start : ¬ RestoresPage 0x100000 lowPagesTaken := by
  rintro ⟨index, page, allocated, freed, returned, below, clear, marked, _, exact, _⟩
  obtain ⟨found, least, rfl, rfl⟩ := allocatePage_ok _ _ allocated page returned
  obtain rfl := mark_inj clear marked
  obtain rfl := least.unique lowPagesTaken_first
  exact absurd exact (by decide)

end Unarddeg.Vmem
