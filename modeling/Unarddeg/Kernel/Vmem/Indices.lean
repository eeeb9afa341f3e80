import Unarddeg.Kernel.Vmem.LiveBlocks
import Unarddeg.Kernel.Vmem.Restored

/-!
# The bitmap as a set of indices

`MStat`, `GetFreePage` and the last lines of `FreePage` of `kernel/vmem/bitmap.c`, without the
addresses of the pages. Over any run the bitmap represents the set of the indices that are handed
out: `GetFreePage` adds the least other one, and freeing an index removes it.
-/

namespace Unarddeg.Vmem

open Library

variable {width : Nat}

/-- `FreePage` behind the computation of the index. -/
def freeIndex (index : Nat) : Kernel (PageState width) Unit :=
  modify fun state => { state with pageBitmap := state.pageBitmap.clear index }

/-- `FreePage` clears the index that it computes. -/
theorem freePage_eq (memoryStart page : BitVec width) :
    freePage memoryStart page = freeIndex (pageIndex memoryStart page) := rfl

/-- A call on the bitmap. -/
inductive IndexCall
  /-- `GetFreePage` with its result. -/
  | getFreePage (result : Int)
  /-- `FreePage` of an index. -/
  | freePage (index : Nat)

/-- The allocator with the indices that are handed out. -/
abbrev IndexState (width : Nat) := PageState width × Finset Nat

/-- One call that returns; only an index that is handed out is freed. -/
inductive IndexStep : IndexState width → IndexCall → IndexState width → Prop
  | found {before after : PageState width} {handed : Finset Nat} (index : Nat)
      (returned : getFreePage before = .ok (index : Int) after) :
      IndexStep (before, handed) (.getFreePage index) (after, insert index handed)
  | full {before after : PageState width} {handed : Finset Nat}
      (returned : getFreePage before = .ok (-1) after) :
      IndexStep (before, handed) (.getFreePage (-1)) (after, handed)
  | freed {before after : PageState width} {handed : Finset Nat} (index : Nat)
      (owned : index ∈ handed) (returned : freeIndex index before = .ok () after) :
      IndexStep (before, handed) (.freePage index) (after, handed.erase index)

/-- The state before the first call: no index is set, and none is handed out. -/
def noneHanded (memory : BitVec width → BitVec width) : IndexState width :=
  (⟨fun _ => 0, memory⟩, ∅)

/-- The bitmap represents the indices that are handed out. -/
structure Represents (state : IndexState width) : Prop where
  /-- The set indices are those handed out. -/
  set : ∀ index, state.1.pageBitmap.test index = true ↔ index ∈ state.2
  /-- Only indices of the bitmap are handed out. -/
  inside : state.2 ⊆ Finset.range totalBitmap

/-- At first nothing is represented. -/
theorem represents_none (memory : BitVec width → BitVec width) :
    Represents (noneHanded memory) where
  set index := by
    have clear : (noneHanded memory).1.pageBitmap.test index = false := by
      rw [BitArray.test_eq (by decide)]
      exact BitVec.getLsbD_zero
    rw [clear]
    simp [noneHanded]
  inside := Finset.empty_subset _

namespace Represents

variable {state : IndexState width}

/-- An index is clear exactly when it is not handed out. -/
theorem clear_iff (represents : Represents state) (index : Nat) :
    state.1.pageBitmap.test index = false ↔ index ∉ state.2 := by
  rw [← represents.set index, Bool.not_eq_true]

/-- A call keeps what the bitmap represents. -/
theorem step (represents : Represents state) {call : IndexCall} {after : IndexState width}
    (step : IndexStep state call after) : Represents after := by
  cases step with
  | @found before last handed index returned =>
    rcases getFreePage_ok before last index returned with ⟨found, value, first, rfl⟩ | full
    · have same : index = found := by omega
      rw [same]
      constructor
      · intro other
        have old := represents.set other
        dsimp only at old ⊢
        rw [BitArray.test_mark (by decide), Finset.mem_insert, Bool.or_eq_true,
          decide_eq_true_eq, old]
      · exact Finset.insert_subset (Finset.mem_range.mpr first.below) represents.inside
    · omega
  | @full before last handed returned =>
    rcases getFreePage_ok before last (-1) returned with ⟨found, value, _⟩ | ⟨_, rfl, _⟩
    · omega
    · exact represents
  | @freed before last handed index owned returned =>
    obtain rfl := modify_ok.mp returned
    constructor
    · intro other
      have old := represents.set other
      dsimp only at old ⊢
      rw [BitArray.test_clear (by decide), Finset.mem_erase, Bool.and_eq_true,
        Bool.not_eq_true', decide_eq_false_iff_not, old]
    · exact (Finset.erase_subset _ _).trans represents.inside

/-- `GetFreePage` returns the least index that is not handed out, or `-1` when all are. -/
theorem getFreePage (represents : Represents state) :
    (∃ (index : Nat) (after : PageState width),
        Vmem.getFreePage state.1 = .ok (index : Int) after ∧ index < totalBitmap ∧
        index ∉ state.2 ∧ ∀ earlier < index, earlier ∈ state.2) ∨
      (Vmem.getFreePage state.1 = .ok (-1) state.1 ∧ state.2 = Finset.range totalBitmap) := by
  rcases firstFree_or_full state.1.pageBitmap with ⟨index, first⟩ | full
  · left
    refine ⟨index, _, getFreePage_first state.1 first, first.below,
      (represents.clear_iff index).mp first.free, ?_⟩
    intro earlier less
    exact (represents.set earlier).mp (first.least earlier less)
  · right
    refine ⟨getFreePage_full state.1 full, represents.inside.antisymm ?_⟩
    intro index member
    exact (represents.set index).mp (full index (Finset.mem_range.mp member))

/-- `MStat` counts the indices that are not handed out. -/
theorem mStat (represents : Represents state) :
    Vmem.mStat state.1 = totalBitmap - state.2.card := by
  have clear : state.1.pageBitmap.clearBelow totalBitmap =
      Finset.range totalBitmap \ state.2 := by
    ext index
    rw [BitArray.mem_clearBelow, Finset.mem_sdiff, Finset.mem_range, represents.clear_iff]
  rw [mStat_eq, clear, Finset.card_sdiff_of_subset represents.inside, Finset.card_range]

end Represents

/-- **Indices.** After any run of `GetFreePage` and of freeing indices that are handed out, the set
bits are the indices that are handed out. `GetFreePage` returns the least other one, or `-1` exactly
when all are handed out, and `MStat` counts the others. -/
theorem indices_represented (memory : BitVec width → BitVec width) {calls : List IndexCall}
    {state : IndexState width} (run : Run IndexStep (noneHanded memory) calls state) :
    (∀ index, state.1.pageBitmap.test index = true ↔ index ∈ state.2) ∧
      (∃ result after, getFreePage state.1 = .ok result after ∧
        ((∃ index : Nat, result = index ∧ index < totalBitmap ∧ index ∉ state.2 ∧
            ∀ earlier < index, earlier ∈ state.2) ∨ result = -1) ∧
        (result = -1 ↔ state.2 = Finset.range totalBitmap)) ∧
      mStat state.1 = totalBitmap - state.2.card := by
  have represents : Represents state :=
    run.invariant Represents (fun _ _ _ kept step => kept.step step) (represents_none memory)
  refine ⟨represents.set, ?_, represents.mStat⟩
  rcases represents.getFreePage with ⟨index, after, returned, below, free, least⟩ | ⟨full, all⟩
  · refine ⟨_, _, returned, .inl ⟨index, rfl, below, free, least⟩, ?_⟩
    constructor
    · intro value
      omega
    · intro all
      rw [all, Finset.mem_range] at free
      exact absurd below free
  · exact ⟨_, _, full, .inr rfl, fun _ => all, fun _ => rfl⟩

/-- A run that hands the first index out and takes it back. -/
theorem indices_represented_sample : ∃ state : IndexState 64,
    Run IndexStep (noneHanded fun _ => 0) [.getFreePage 0, .freePage 0] state ∧
      mStat state.1 = totalBitmap - state.2.card := by
  have clear := (@represents_none 64 fun _ => 0).clear_iff
  have first : FirstFree (@noneHanded 64 fun _ => 0).1.pageBitmap 0 :=
    ⟨by decide, (clear 0).mpr (Finset.notMem_empty 0), fun earlier less => by omega⟩
  have found := getFreePage_first (noneHanded fun _ => 0).1 first
  have run : Run IndexStep (noneHanded fun _ => 0) [.getFreePage 0, .freePage 0] _ :=
    .snoc (.snoc (.nil _) (.found 0 found)) (.freed 0 (Finset.mem_insert_self 0 _) rfl)
  exact ⟨_, run, (indices_represented (fun _ => 0) run).2.2⟩

end Unarddeg.Vmem
