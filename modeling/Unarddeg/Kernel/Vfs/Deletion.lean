import Unarddeg.Kernel.Vfs.VNode
import Unarddeg.Library.Ledger

/-!
# Deleting a tree

`DeleteVNode` of `kernel/vfs/vnode.c` on a finite tree, with a note of every node that it reads and
every one that it frees. It frees the nodes below a node first, in the order of the lists of
children, and takes the next sibling of a child from it before the child is freed
(`delete_tree`).
-/

namespace Unarddeg

open Library

variable {width : Nat} {Registers : Type}

/-! ## With notes

The functions in the namespace `Noted` are those of the same names, with notes of the blocks that
they touch and free. -/

namespace Noted

/-- The kernel with notes. -/
abbrev Kernel (width : Nat) (Registers : Type) (α : Type) :=
  EStateM Stop (Ledger (KernelState width Registers) Address) α

/-- `readNode`, which touches the node. -/
def readNode (pointer : Pointer) : Kernel width Registers VNode := do
  let address ← quietly (deref pointer)
  note (.touch address)
  quietly (Unarddeg.readNode (some address))

/-- `kfree`. -/
def kfree (pointer : Pointer) : Kernel width Registers Unit := do
  quietly (panicIf (pointer = none) .nullPointerDereference)
  let address ← quietly (deref pointer)
  quietly (Unarddeg.kfree (some address))
  note (.free address)

/-- `DeleteVNode`. -/
def deleteVNode : (fuel : Nat) → Pointer → Kernel width Registers Unit
  | 0, _ => throw .hang
  | fuel + 1, pointer => do
    quietly (panicIf (pointer = none) .nullPointerDereference)
    let node ← readNode pointer
    deleteChildren fuel node.firstChild
    kfree pointer
where
  /-- The loop over the children of a node. -/
  deleteChildren : (fuel : Nat) → Pointer → Kernel width Registers Unit
    | 0, _ => throw .hang
    | _ + 1, none => pure ()
    | fuel + 1, some child => do
      let node ← readNode (some child)
      deleteVNode fuel (some child)
      deleteChildren fuel node.next

/-- Reading with notes is reading. -/
theorem readNode_tracks (pointer : Pointer) :
    Tracks HeapEvent.IsTouch (readNode pointer : Kernel width Registers VNode)
      (Unarddeg.readNode pointer) := by
  apply Tracks.bind (.quietly _)
  intro address
  apply Tracks.behind trivial
  exact .quietly _

/-- Freeing with notes is freeing. -/
theorem kfree_tracks (pointer : Pointer) :
    Tracks (fun _ => True) (kfree pointer : Kernel width Registers Unit)
      (Unarddeg.kfree pointer) := by
  apply Tracks.bind (.quietly _)
  intro _
  apply Tracks.bind (.quietly _)
  intro address
  apply Tracks.bind (.quietly _)
  intro _
  exact .note trivial

/-- Deleting with notes is deleting, and so is the loop over children. -/
theorem deletion_tracks (fuel : Nat) : ∀ pointer,
    Tracks (fun _ => True) (deleteVNode fuel pointer : Kernel width Registers Unit)
        (Unarddeg.deleteVNode fuel pointer) ∧
      Tracks (fun _ => True) (deleteVNode.deleteChildren fuel pointer : Kernel width Registers Unit)
        (Unarddeg.deleteVNode.deleteChildren fuel pointer) := by
  induction fuel with
  | zero =>
    intro pointer
    exact ⟨.throw _, .throw _⟩
  | succ fuel ih =>
    intro pointer
    constructor
    · apply Tracks.bind (.quietly _)
      intro _
      apply Tracks.bind (readNode_tracks pointer).any
      intro node
      apply Tracks.bind (ih node.firstChild).2
      intro _
      exact kfree_tracks pointer
    · cases pointer with
      | none => exact .pure _
      | some child =>
        apply Tracks.bind (readNode_tracks (some child)).any
        intro node
        apply Tracks.bind (ih (some child)).1
        intro _
        exact (ih node.next).2

/-- Deleting with notes is deleting. -/
theorem deleteVNode_tracks (fuel : Nat) (pointer : Pointer) :
    Tracks (fun _ => True) (deleteVNode fuel pointer : Kernel width Registers Unit)
      (Unarddeg.deleteVNode fuel pointer) :=
  (deletion_tracks fuel pointer).1

end Noted

/-! ## Finite trees -/

/-- The nodes that `FirstChild` and `Next` reach from a pointer, each one behind the nodes below
it. There are finitely many on every way. -/
inductive Postorder (nodes : Address → VNode) : Pointer → List Address → Prop
  | nil : Postorder nodes none []
  | cons {child : Address} {below rest : List Address}
      (children : Postorder nodes (nodes child).firstChild below)
      (siblings : Postorder nodes (nodes child).next rest) :
      Postorder nodes (some child) (below ++ child :: rest)

/-- A node is the first child or the next sibling of another one. -/
def LeadsDown (nodes : Address → VNode) (lower upper : Address) : Prop :=
  (nodes upper).firstChild = some lower ∨ (nodes upper).next = some lower

/-- The nodes of a finite tree, or of several side by side. None is reached in two ways. -/
structure FiniteForest (nodes : Address → VNode) (start : Pointer) (all : List Address) : Prop where
  /-- The nodes that are reached. -/
  order : Postorder nodes start all
  /-- They are different. -/
  distinct : all.Nodup

section Trees

variable {nodes : Address → VNode} {start : Pointer} {all : List Address} {node : Address}

/-- From a node from which no way goes on for ever, finitely many nodes are reached. -/
theorem Postorder.of_acc (ends : Acc (LeadsDown nodes) node) :
    ∃ all, Postorder nodes (some node) all := by
  induction ends with
  | intro node _ ih =>
    have reached : ∀ pointer : Pointer, (∀ lower, pointer = some lower →
        LeadsDown nodes lower node) → ∃ all, Postorder nodes pointer all := by
      intro pointer down
      cases pointer with
      | none => exact ⟨[], .nil⟩
      | some lower => exact ih lower (down lower rfl)
    obtain ⟨below, children⟩ := reached (nodes node).firstChild fun _ same => .inl same
    obtain ⟨rest, siblings⟩ := reached (nodes node).next fun _ same => .inr same
    exact ⟨_, .cons children siblings⟩

/-- The nodes below a node of a tree stand before it. -/
theorem Postorder.nodes_below (order : Postorder nodes start all) (member : node ∈ all) :
    ∃ below, Postorder nodes (nodes node).firstChild below ∧ (below ++ [node]).Sublist all := by
  induction order with
  | nil => cases member
  | @cons child below rest children _ ihBelow ihRest =>
    rcases List.mem_append.mp member with inside | behind
    · obtain ⟨lower, order, sublist⟩ := ihBelow inside
      exact ⟨lower, order, sublist.trans (List.sublist_append_left ..)⟩
    · rcases List.mem_cons.mp behind with rfl | inside
      · refine ⟨below, children, ?_⟩
        apply List.Sublist.append_left
        apply List.Sublist.cons_cons
        exact List.nil_sublist rest
      · obtain ⟨lower, order, sublist⟩ := ihRest inside
        refine ⟨lower, order, sublist.trans ?_⟩
        exact (List.sublist_cons_self ..).trans (List.sublist_append_right ..)

end Trees

/-! ## What is freed -/

/-- What a deletion of some nodes notes: they are freed in their order, and no other node is
touched. -/
structure Deletes (events : List (HeapEvent Address)) (all : List Address) : Prop where
  /-- The nodes that are freed. -/
  freed : freedIn events = all
  /-- The nodes that are touched. -/
  touched : ∀ cell, .touch cell ∈ events → cell ∈ all
  /-- No node is touched behind its end. -/
  clean : all.Nodup → NeverAfterFree events

section Deletions

variable {events : List (HeapEvent Address)} {all below rest : List Address} {node : Address}

/-- A node is deleted behind those below it. -/
theorem Deletes.behind (deletes : Deletes events below) :
    Deletes (.touch node :: events ++ [.free node]) (below ++ [node]) := by
  constructor
  · simp [deletes.freed]
  · intro cell member
    simp only [List.mem_append, List.mem_cons, List.not_mem_nil, HeapEvent.touch.injEq,
      reduceCtorEq, or_false] at member ⊢
    rcases member with same | inside
    · exact .inr same
    · exact .inl (deletes.touched cell inside)
  · intro distinct
    obtain ⟨belowDistinct, _, apart⟩ := List.nodup_append.mp distinct
    have absent : node ∉ below := fun member =>
      apart node member node (List.mem_singleton_self _) rfl
    have front : NeverAfterFree (.touch node :: events) := by
      apply (@NeverAfterFree.append_iff _ [.touch node] events).mpr
      exact ⟨.of_freedIn rfl, deletes.clean belowDistinct, by simp⟩
    apply NeverAfterFree.append_iff.mpr
    exact ⟨front, List.pairwise_singleton .., by simp⟩

/-- A child is deleted before its next siblings. -/
theorem Deletes.sibling {later : List (HeapEvent Address)} (deletes : Deletes events all)
    (member : node ∈ all) (siblings : Deletes later rest) :
    Deletes (.touch node :: events ++ later) (all ++ rest) := by
  constructor
  · simp [deletes.freed, siblings.freed]
  · intro cell member'
    simp only [List.mem_append, List.mem_cons, HeapEvent.touch.injEq] at member' ⊢
    rcases member' with (rfl | inside) | inside
    · exact .inl member
    · exact .inl (deletes.touched cell inside)
    · exact .inr (siblings.touched cell inside)
  · intro distinct
    obtain ⟨first, second, apart⟩ := List.nodup_append.mp distinct
    have front : NeverAfterFree (.touch node :: events) := by
      apply (@NeverAfterFree.append_iff _ [.touch node] events).mpr
      exact ⟨.of_freedIn rfl, deletes.clean first, by simp⟩
    apply NeverAfterFree.append_iff.mpr
    refine ⟨front, siblings.clean second, ?_⟩
    intro cell freed touched
    rw [freedIn_touch, deletes.freed] at freed
    exact apart cell freed cell (siblings.touched cell touched) rfl

end Deletions

/-- The state after some blocks are freed. -/
def KernelState.freeing (state : KernelState width Registers) (blocks : List Address) :
    KernelState width Registers :=
  { state with live := state.live \ blocks.toFinset }

/-- Nothing is freed. -/
theorem KernelState.freeing_nil (state : KernelState width Registers) :
    state.freeing [] = state := by
  simp [KernelState.freeing]

/-- Blocks are freed one list after the other. -/
theorem KernelState.freeing_append (state : KernelState width Registers)
    (front rest : List Address) :
    (state.freeing front).freeing rest = state.freeing (front ++ rest) := by
  simp [KernelState.freeing, List.toFinset_append, sdiff_sdiff_left]

section Runs

variable {state : KernelState width Registers} {notes : List (HeapEvent Address)}
  {all below : List Address} {start : Pointer} {node : Address} {fuel : Nat}

/-- Reading a node notes it. -/
theorem Noted.readNode_eq (state : KernelState width Registers)
    (notes : List (HeapEvent Address)) (node : Address) :
    Noted.readNode (some node) ⟨state, notes⟩ =
      .ok (state.node node) ⟨state, notes ++ [.touch node]⟩ := rfl

/-- Freeing a block notes it. -/
theorem Noted.kfree_eq (state : KernelState width Registers)
    (notes : List (HeapEvent Address)) (block : Address) :
    Noted.kfree (some block) ⟨state, notes⟩ =
      .ok () ⟨state.freeing [block], notes ++ [.free block]⟩ := by
  have erased : state.live.erase block = state.live \ [block].toFinset := by
    rw [List.toFinset_cons, List.toFinset_nil, insert_empty_eq, Finset.sdiff_singleton_eq_erase]
  unfold KernelState.freeing
  rw [← erased]
  rfl

/-- A node is deleted when the loop over its children returns. -/
theorem Noted.deleteVNode_of_children {events : List (HeapEvent Address)}
    (children : Noted.deleteVNode.deleteChildren fuel (state.node node).firstChild
      ⟨state, notes ++ [.touch node]⟩ =
        .ok () ⟨state.freeing below, notes ++ [.touch node] ++ events⟩) :
    Noted.deleteVNode (fuel + 1) (some node) ⟨state, notes⟩ =
      .ok () ⟨state.freeing (below ++ [node]),
        notes ++ (.touch node :: events ++ [.free node])⟩ := by
  have started : quietly (panicIf ((some node : Pointer) = none) .nullPointerDereference)
      (⟨state, notes⟩ : Ledger (KernelState width Registers) Address) =
        .ok () ⟨state, notes⟩ := rfl
  unfold Noted.deleteVNode
  rw [bind_of_ok started, bind_of_ok (Noted.readNode_eq state notes node), bind_of_ok children,
    Noted.kfree_eq, KernelState.freeing_append]
  simp

/-- The loop over children deletes what it reaches. The induction is on the tree. -/
theorem Noted.deleteChildren_ok (order : Postorder state.node start all)
    (enough : 2 * all.length + 1 ≤ fuel) :
    ∃ events, Deletes events all ∧
      Noted.deleteVNode.deleteChildren fuel start ⟨state, notes⟩ =
        .ok () ⟨state.freeing all, notes ++ events⟩ := by
  generalize same : state.node = nodes at order
  induction order generalizing state notes fuel with
  | nil =>
    obtain ⟨less, rfl⟩ : ∃ less, fuel = less + 1 := ⟨fuel - 1, by omega⟩
    refine ⟨[], ⟨rfl, by simp, fun _ => .of_freedIn rfl⟩, ?_⟩
    rw [KernelState.freeing_nil, List.append_nil]
    rfl
  | @cons child below rest children siblings ihBelow ihRest =>
    simp only [List.length_append, List.length_cons] at enough
    obtain ⟨less, rfl⟩ : ∃ less, fuel = less + 2 := ⟨fuel - 2, by omega⟩
    subst same
    obtain ⟨belowEvents, belowDeletes, belowRun⟩ := @ihBelow state
      (notes ++ [.touch child] ++ [.touch child]) less (by omega) rfl
    have childRun := Noted.deleteVNode_of_children belowRun
    obtain ⟨restEvents, restDeletes, restRun⟩ := @ihRest (state.freeing (below ++ [child]))
      (notes ++ [.touch child] ++ (.touch child :: belowEvents ++ [.free child])) (less + 1)
      (by omega) rfl
    have member : child ∈ below ++ [child] := by simp
    refine ⟨.touch child :: (.touch child :: belowEvents ++ [.free child]) ++ restEvents, ?_, ?_⟩
    · have deletes := belowDeletes.behind.sibling member restDeletes
      simpa using deletes
    · unfold Noted.deleteVNode.deleteChildren
      rw [bind_of_ok (Noted.readNode_eq state notes child), bind_of_ok childRun, restRun,
        KernelState.freeing_append]
      simp

/-- `DeleteVNode` deletes a node and what is below it. -/
theorem Noted.deleteVNode_ok (order : Postorder state.node (state.node node).firstChild below)
    (enough : 2 * below.length + 2 ≤ fuel) :
    ∃ events, Deletes events (below ++ [node]) ∧
      Noted.deleteVNode fuel (some node) ⟨state, notes⟩ =
        .ok () ⟨state.freeing (below ++ [node]), notes ++ events⟩ := by
  obtain ⟨less, rfl⟩ : ∃ less, fuel = less + 1 := ⟨fuel - 1, by omega⟩
  obtain ⟨events, deletes, run⟩ := @Noted.deleteChildren_ok _ _ state
    (notes ++ [.touch node]) below _ less order (by omega)
  exact ⟨_, deletes.behind, Noted.deleteVNode_of_children run⟩

/-- **Deletion.** On a finite tree, `DeleteVNode` of a node returns. It frees the nodes below and
the node itself, each of them once and nothing else, and touches no node that it has freed. -/
theorem delete_tree (forest : FiniteForest state.node start all) (member : node ∈ all) :
    ∃ below, Postorder state.node (state.node node).firstChild below ∧
      (below ++ [node]).Nodup ∧
      ∀ fuel ≥ 2 * below.length + 2, ∃ events,
        Noted.deleteVNode fuel (some node) ⟨state, []⟩ =
          .ok () ⟨state.freeing (below ++ [node]), events⟩ ∧
        deleteVNode fuel (some node) state = .ok () (state.freeing (below ++ [node])) ∧
        freedIn events = below ++ [node] ∧ NeverAfterFree events := by
  obtain ⟨below, order, sublist⟩ := forest.order.nodes_below member
  have distinct := sublist.nodup forest.distinct
  refine ⟨below, order, distinct, ?_⟩
  intro fuel enough
  obtain ⟨events, deletes, run⟩ := @Noted.deleteVNode_ok _ _ state [] below node fuel order enough
  rw [List.nil_append] at run
  exact ⟨events, run, (Noted.deleteVNode_tracks fuel (some node)).ok run, deletes.freed,
    deletes.clean distinct⟩

end Runs

/-- A node with two children. -/
def familyTree : Address → VNode
  | 1 => { VNode.zero with firstChild := some 2 }
  | 2 => { VNode.zero with next := some 3 }
  | 3 => { VNode.zero with previous := some 2 }
  | _ => VNode.zero

/-- The tree is finite. -/
theorem familyTree_finite : FiniteForest familyTree (some 1) [2, 3, 1] where
  order := by
    have last : Postorder familyTree (some 3) [3] := @Postorder.cons _ 3 [] [] .nil .nil
    have children : Postorder familyTree (some 2) [2, 3] := @Postorder.cons _ 2 [] [3] .nil last
    exact @Postorder.cons _ 1 [2, 3] [] children .nil
  distinct := by decide

/-- The node is deleted with its children. -/
theorem delete_tree_family : ∃ below,
    Postorder familyTree (familyTree 1).firstChild below ∧ (below ++ [1]).Nodup ∧
      ∀ fuel ≥ 2 * below.length + 2, ∃ events,
        Noted.deleteVNode fuel (some 1) ⟨{ KernelState.zero 32 () with node := familyTree }, []⟩ =
          .ok () ⟨KernelState.freeing { KernelState.zero 32 () with node := familyTree }
            (below ++ [1]), events⟩ ∧
        deleteVNode fuel (some 1) { KernelState.zero 32 () with node := familyTree } =
          .ok () (KernelState.freeing { KernelState.zero 32 () with node := familyTree }
            (below ++ [1])) ∧
        freedIn events = below ++ [1] ∧ NeverAfterFree events :=
  @delete_tree _ _ { KernelState.zero 32 () with node := familyTree } _ _ _ familyTree_finite
    (by decide)

end Unarddeg
