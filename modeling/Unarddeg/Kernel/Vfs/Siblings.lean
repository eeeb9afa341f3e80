import Unarddeg.Kernel.Vfs.RelativeFind

/-!
# The two registrations and the sibling links

Trees that `RegisterChildVNode` and `RegisterSiblingVNode` of `kernel/vfs/vnode.c` build from an
initialised root, in any mixture. The first one sets the backward link of the sibling it puts the
new node in front of; the second one never sets that of the new node. The sibling links are
therefore inverse to each other exactly as long as nobody calls the second one.
-/

namespace Unarddeg

open Library

variable {width : Nat} {Registers : Type}

/-- A call of one of the two functions. -/
inductive Registration
  /-- `RegisterChildVNode`. -/
  | child (parent child : Address)
  /-- `RegisterSiblingVNode`. -/
  | sibling (base child : Address)
  deriving DecidableEq, Repr

/-- A tree under construction: the kernel, and the root with the nodes registered so far. -/
structure NodeTree (width : Nat) (Registers : Type) where
  /-- The state of the kernel. -/
  state : KernelState width Registers
  /-- The nodes of the tree. -/
  members : List Address

/-- A node that `VNodeDefault` has left without siblings and children. -/
structure Unlinked (node : VNode) : Prop where
  /-- It has no next sibling. -/
  next : node.next = none
  /-- It has no previous sibling. -/
  previous : node.previous = none
  /-- It has no child. -/
  firstChild : node.firstChild = none

/-- A state in which a new node was made beside the tree. -/
structure Fresh (tree : NodeTree width Registers) (made : KernelState width Registers)
    (child : Address) : Prop where
  /-- The node is not in the tree. -/
  outside : child ∉ tree.members
  /-- The nodes of the tree are as before. -/
  same : ∀ address ∈ tree.members, made.node address = tree.state.node address
  /-- The node has no links yet. -/
  unlinked : Unlinked (made.node child)

/-- One registration of a new node at a node of the tree. -/
inductive RegisterStep :
    NodeTree width Registers → Registration → NodeTree width Registers → Prop
  | child {tree : NodeTree width Registers} {made after : KernelState width Registers}
      {parent child : Address} (member : parent ∈ tree.members) (fresh : Fresh tree made child)
      (returned : registerChildVNode (some parent) (some child) made = .ok () after) :
      RegisterStep tree (.child parent child) ⟨after, child :: tree.members⟩
  | sibling {tree : NodeTree width Registers} {made after : KernelState width Registers}
      {base child : Address} (member : base ∈ tree.members) (notRoot : base ≠ rootVNode)
      (fresh : Fresh tree made child)
      (returned : registerSiblingVNode (some base) (some child) made = .ok () after) :
      RegisterStep tree (.sibling base child) ⟨after, child :: tree.members⟩

/-- The root alone, as `VNodeDefault` initialises it. -/
def NodeTree.rootOnly (state : KernelState width Registers) (node : VNode) :
    NodeTree width Registers :=
  ⟨state.setNode rootVNode (vNodeDefault width node), [rootVNode]⟩

/-- The sibling links of a tree are inverse to each other. -/
def MutualSiblings (tree : NodeTree width Registers) : Prop :=
  ∀ left ∈ tree.members, ∀ right ∈ tree.members,
    (tree.state.node left).next = some right ↔ (tree.state.node right).previous = some left

/-- The sibling and child links of a tree stay in it. -/
structure ClosedTree (tree : NodeTree width Registers) : Prop where
  /-- The next siblings are nodes of the tree. -/
  next : ∀ address ∈ tree.members, ∀ target, (tree.state.node address).next = some target →
    target ∈ tree.members
  /-- The first children are nodes of the tree. -/
  firstChild : ∀ address ∈ tree.members, ∀ target,
    (tree.state.node address).firstChild = some target → target ∈ tree.members
  /-- The previous siblings are nodes of the tree. -/
  previous : ∀ address ∈ tree.members, ∀ target,
    (tree.state.node address).previous = some target → target ∈ tree.members

/-- What registrations of children keep beside the sibling links: a list of siblings starts at the
first child of one node. -/
structure ChildLists (tree : NodeTree width Registers) : Prop where
  /-- The sibling links are inverse to each other. -/
  inverse : MutualSiblings tree
  /-- Nothing comes before a first child. -/
  first : ∀ parent ∈ tree.members, ∀ child,
    (tree.state.node parent).firstChild = some child → (tree.state.node child).previous = none
  /-- Two nodes have different first children. -/
  single : ∀ left ∈ tree.members, ∀ right ∈ tree.members, ∀ child,
    (tree.state.node left).firstChild = some child →
    (tree.state.node right).firstChild = some child → left = right

/-- Two siblings with a forward link and without the backward one. -/
def BrokenPair (tree : NodeTree width Registers) : Prop :=
  ∃ left ∈ tree.members, ∃ right ∈ tree.members,
    (tree.state.node left).next = some right ∧ (tree.state.node right).previous ≠ some left

/-- A broken pair shows that the links are not inverse to each other. -/
theorem BrokenPair.not_mutual {tree : NodeTree width Registers} (broken : BrokenPair tree) :
    ¬ MutualSiblings tree := by
  intro inverse
  obtain ⟨left, leftMember, right, rightMember, forward, backward⟩ := broken
  exact backward ((inverse left leftMember right rightMember).mp forward)

/-- A node that `NewVNode` makes is fresh, whatever a driver assigns to it but links. -/
theorem Fresh.of_newVNode {tree : NodeTree width Registers}
    {made : KernelState width Registers} {allocator : Allocator} {flags : VNodeFlags}
    {child : Address} (live : ∀ address ∈ tree.members, address ∈ tree.state.live)
    (created : newVNode allocator flags tree.state = .ok child made) (assign : VNode → VNode)
    (keeps : ∀ node, Unlinked node → Unlinked (assign node)) :
    Fresh tree (made.setNode child (assign (made.node child))) child := by
  obtain ⟨free, rfl⟩ := newVNode_ok created
  constructor
  · intro member
    exact free (live child member)
  · intro address member
    have apart : address ≠ child := fun same => free (same ▸ live address member)
    simp [KernelState.setNode, KernelState.allocated, apart]
  · simp only [KernelState.setNode_node, Function.update_self]
    apply keeps
    exact ⟨rfl, rfl, rfl⟩

/-- What a registration of a child leaves. -/
structure PutFirst (tree after : NodeTree width Registers) (parent child : Address) : Prop where
  /-- The parent is in the tree. -/
  parentMember : parent ∈ tree.members
  /-- The child is new. -/
  outside : child ∉ tree.members
  /-- The child is in the tree afterwards. -/
  members : after.members = child :: tree.members
  /-- The child is the first one of the parent, and its next sibling leads back to it. -/
  old : ∀ address ∈ tree.members, after.state.node address =
    { tree.state.node address with
      firstChild := if address = parent then some child else (tree.state.node address).firstChild
      previous := if some address = (tree.state.node parent).firstChild then some child
        else (tree.state.node address).previous }
  /-- The next sibling of the child is the one that was first. -/
  next : (after.state.node child).next = (tree.state.node parent).firstChild
  /-- Nothing comes before the child. -/
  previous : (after.state.node child).previous = none
  /-- The child has no children. -/
  firstChild : (after.state.node child).firstChild = none

/-- What a registration of a sibling leaves. -/
structure PutBehind (tree after : NodeTree width Registers) (base child : Address) : Prop where
  /-- The base is in the tree. -/
  baseMember : base ∈ tree.members
  /-- The child is new. -/
  outside : child ∉ tree.members
  /-- The child is in the tree afterwards. -/
  members : after.members = child :: tree.members
  /-- The child is the next sibling of the base, and its own next sibling leads back to it. -/
  old : ∀ address ∈ tree.members, after.state.node address =
    { tree.state.node address with
      next := if address = base then some child else (tree.state.node address).next
      previous := if some address = (tree.state.node base).next then some child
        else (tree.state.node address).previous }
  /-- The next sibling of the child is the one of the base. -/
  next : (after.state.node child).next = (tree.state.node base).next
  /-- The child does not lead back to the base. -/
  previous : (after.state.node child).previous = none
  /-- The child has no children. -/
  firstChild : (after.state.node child).firstChild = none

section Step

variable {tree after : NodeTree width Registers} {call : Registration}
  {parent base child : Address}

/-- A registration of a child puts it first. -/
theorem RegisterStep.putFirst (step : RegisterStep tree (.child parent child) after)
    (closed : ClosedTree tree) : PutFirst tree after parent child := by
  cases step with
  | child member fresh returned =>
    have outside := fresh.outside
    obtain rfl := registerChildVNode_ok returned
    have apart : child ≠ parent := fun same => outside (same ▸ member)
    have notFirst : some child ≠ (tree.state.node parent).firstChild := fun same =>
      outside (closed.firstChild parent member child same.symm)
    constructor
    · exact member
    · exact outside
    · rfl
    · intro address inside
      have other : address ≠ child := fun same => outside (same ▸ inside)
      simp only [attach, fresh.same address inside, fresh.same parent member, if_neg other]
    · simp [attach, fresh.same parent member]
    · simp [attach, fresh.same parent member, notFirst, fresh.unlinked.previous]
    · simp [attach, apart, fresh.unlinked.firstChild]

/-- A registration of a sibling puts it behind its base. -/
theorem RegisterStep.putBehind (step : RegisterStep tree (.sibling base child) after)
    (closed : ClosedTree tree) : PutBehind tree after base child := by
  cases step with
  | sibling member notRoot fresh returned =>
    have outside := fresh.outside
    obtain rfl := registerSiblingVNode_ok returned
    have apart : child ≠ base := fun same => outside (same ▸ member)
    have notNext : some child ≠ (tree.state.node base).next := fun same =>
      outside (closed.next base member child same.symm)
    constructor
    · exact member
    · exact outside
    · rfl
    · intro address inside
      have other : address ≠ child := fun same => outside (same ▸ inside)
      simp only [attachBehind, fresh.same address inside, fresh.same base member, if_neg other]
    · simp [attachBehind, fresh.same base member, apart]
    · simp [attachBehind, fresh.same base member, notNext, fresh.unlinked.previous]
    · simp [attachBehind, fresh.unlinked.firstChild]

/-- A pointer that a registration redirects to the new node, or keeps, leads into the tree. -/
theorem redirected_mem {members : List Address} {test : Prop} [Decidable test]
    {pointer : Pointer} {target : Address}
    (kept : ∀ target, pointer = some target → target ∈ members)
    (points : (if test then some child else pointer) = some target) :
    target ∈ child :: members := by
  split at points
  · cases points
    exact List.mem_cons_self
  · exact List.mem_cons_of_mem _ (kept target points)

/-- A registration of a child keeps the links in the tree. -/
theorem PutFirst.closed (put : PutFirst tree after parent child) (closed : ClosedTree tree) :
    ClosedTree after := by
  constructor
  all_goals
    intro address inside target points
    rw [put.members] at inside ⊢
    rcases List.mem_cons.mp inside with rfl | old
  · rw [put.next] at points
    exact List.mem_cons_of_mem _ (closed.firstChild parent put.parentMember target points)
  · rw [put.old address old] at points
    exact List.mem_cons_of_mem _ (closed.next address old target points)
  · simp [put.firstChild] at points
  · rw [put.old address old] at points
    exact redirected_mem (closed.firstChild address old) points
  · simp [put.previous] at points
  · rw [put.old address old] at points
    exact redirected_mem (closed.previous address old) points

/-- A registration of a sibling keeps the links in the tree. -/
theorem PutBehind.closed (put : PutBehind tree after base child) (closed : ClosedTree tree) :
    ClosedTree after := by
  constructor
  all_goals
    intro address inside target points
    rw [put.members] at inside ⊢
    rcases List.mem_cons.mp inside with rfl | old
  · rw [put.next] at points
    exact List.mem_cons_of_mem _ (closed.next base put.baseMember target points)
  · rw [put.old address old] at points
    exact redirected_mem (closed.next address old) points
  · simp [put.firstChild] at points
  · rw [put.old address old] at points
    exact List.mem_cons_of_mem _ (closed.firstChild address old target points)
  · simp [put.previous] at points
  · rw [put.old address old] at points
    exact redirected_mem (closed.previous address old) points

/-- A registration of a child keeps the sibling links inverse to each other. -/
theorem PutFirst.mutual (put : PutFirst tree after parent child) (closed : ClosedTree tree)
    (lists : ChildLists tree) : MutualSiblings after := by
  have outside := put.outside
  intro left leftMember right rightMember
  rw [put.members] at leftMember rightMember
  rcases List.mem_cons.mp leftMember with rfl | leftOld <;>
    rcases List.mem_cons.mp rightMember with rfl | rightOld
  · rw [put.next, put.previous]
    refine iff_of_false (fun same => ?_) (by simp)
    exact outside (closed.firstChild parent put.parentMember _ same)
  · rw [put.next, put.old right rightOld]
    by_cases begins : some right = (tree.state.node parent).firstChild
    · simp [← begins]
    · dsimp only
      rw [if_neg begins]
      refine iff_of_false (fun same => begins same.symm) (fun same => ?_)
      exact outside (closed.previous right rightOld left same)
  · rw [put.previous, put.old left leftOld]
    refine iff_of_false (fun same => ?_) (by simp)
    exact outside (closed.next left leftOld right same)
  · rw [put.old left leftOld, put.old right rightOld]
    by_cases begins : some right = (tree.state.node parent).firstChild
    · -- The sibling that was first had nothing before it, and has the new node now.
      have alone := lists.first parent put.parentMember right begins.symm
      dsimp only
      rw [if_pos begins, lists.inverse left leftOld right rightOld, alone]
      refine iff_of_false (by simp) (fun same => ?_)
      exact outside (Option.some.inj same ▸ leftOld)
    · dsimp only
      rw [if_neg begins]
      exact lists.inverse left leftOld right rightOld

/-- Nothing comes before a first child then. -/
theorem PutFirst.begins (put : PutFirst tree after parent child) (closed : ClosedTree tree)
    (lists : ChildLists tree) {above : Address} (member : above ∈ after.members)
    {first : Address} (points : (after.state.node above).firstChild = some first) :
    (after.state.node first).previous = none := by
  rw [put.members] at member
  rcases List.mem_cons.mp member with rfl | old
  · simp [put.firstChild] at points
  · rw [put.old above old] at points
    dsimp only at points
    split at points
    · cases points
      exact put.previous
    · rename_i other
      rw [put.old first (closed.firstChild above old first points)]
      dsimp only
      rw [if_neg]
      · exact lists.first above old first points
      · intro begins
        exact other (lists.single above old parent put.parentMember first points begins.symm)

/-- Two nodes have different first children then. -/
theorem PutFirst.single (put : PutFirst tree after parent child) (closed : ClosedTree tree)
    (lists : ChildLists tree) {left right : Address} (leftMember : left ∈ after.members)
    (rightMember : right ∈ after.members) {first : Address}
    (leftPoints : (after.state.node left).firstChild = some first)
    (rightPoints : (after.state.node right).firstChild = some first) : left = right := by
  rw [put.members] at leftMember rightMember
  rcases List.mem_cons.mp leftMember with rfl | leftOld
  · simp [put.firstChild] at leftPoints
  rcases List.mem_cons.mp rightMember with rfl | rightOld
  · simp [put.firstChild] at rightPoints
  rw [put.old left leftOld] at leftPoints
  rw [put.old right rightOld] at rightPoints
  dsimp only at leftPoints rightPoints
  split at leftPoints <;> split at rightPoints
  · rename_i leftIs rightIs
    exact leftIs.trans rightIs.symm
  · cases leftPoints
    exact absurd (closed.firstChild right rightOld child rightPoints) put.outside
  · cases rightPoints
    exact absurd (closed.firstChild left leftOld child leftPoints) put.outside
  · exact lists.single left leftOld right rightOld first leftPoints rightPoints

/-- A registration of a child keeps the lists of children. -/
theorem PutFirst.childLists (put : PutFirst tree after parent child) (closed : ClosedTree tree)
    (lists : ChildLists tree) : ChildLists after where
  inverse := put.mutual closed lists
  first _ member _ points := put.begins closed lists member points
  single _ leftMember _ rightMember _ leftPoints rightPoints :=
    put.single closed lists leftMember rightMember leftPoints rightPoints

/-- A registration of a child keeps a broken pair. -/
theorem PutFirst.broken (put : PutFirst tree after parent child) (broken : BrokenPair tree) :
    BrokenPair after := by
  obtain ⟨left, leftMember, right, rightMember, forward, backward⟩ := broken
  refine ⟨left, ?_, right, ?_, ?_, ?_⟩
  · rw [put.members]
    exact List.mem_cons_of_mem _ leftMember
  · rw [put.members]
    exact List.mem_cons_of_mem _ rightMember
  · rw [put.old left leftMember]
    exact forward
  · rw [put.old right rightMember]
    dsimp only
    split
    · intro same
      cases same
      exact put.outside leftMember
    · exact backward

/-- A registration of a sibling breaks a pair: the new node does not lead back to its base. -/
theorem PutBehind.broken (put : PutBehind tree after base child) : BrokenPair after := by
  refine ⟨base, ?_, child, ?_, ?_, ?_⟩
  · rw [put.members]
    exact List.mem_cons_of_mem _ put.baseMember
  · rw [put.members]
    exact List.mem_cons_self
  · rw [put.old base put.baseMember]
    simp
  · rw [put.previous]
    simp

/-- Every registration keeps the links in the tree. -/
theorem RegisterStep.closed (step : RegisterStep tree call after) (closed : ClosedTree tree) :
    ClosedTree after := by
  cases call with
  | child parent child => exact (step.putFirst closed).closed closed
  | sibling base child => exact (step.putBehind closed).closed closed

end Step

section Runs

variable {state : KernelState width Registers} {node : VNode} {tree : NodeTree width Registers}
  {calls : List Registration}

/-- The root alone has no links. -/
theorem rootOnly_childLists (state : KernelState width Registers) (node : VNode) :
    ClosedTree (.rootOnly state node) ∧ ChildLists (.rootOnly state node) := by
  have unlinked : ∀ address ∈ (NodeTree.rootOnly state node).members,
      Unlinked ((NodeTree.rootOnly state node).state.node address) := by
    intro address inside
    obtain rfl := List.mem_singleton.mp inside
    simp only [NodeTree.rootOnly, KernelState.setNode_node, Function.update_self]
    exact ⟨rfl, rfl, rfl⟩
  constructor
  · constructor
    · intro address inside target points
      simp [(unlinked address inside).next] at points
    · intro address inside target points
      simp [(unlinked address inside).firstChild] at points
    · intro address inside target points
      simp [(unlinked address inside).previous] at points
  · constructor
    · intro left leftMember right rightMember
      rw [(unlinked left leftMember).next, (unlinked right rightMember).previous]
      simp
    · intro parent inside child points
      simp [(unlinked parent inside).firstChild] at points
    · intro left leftMember right rightMember child points
      simp [(unlinked left leftMember).firstChild] at points

/-- After registrations of children the lists are as they should be; after one of a sibling some
pair is broken. -/
theorem registrations_run (run : Run RegisterStep (.rootOnly state node) calls tree) :
    ClosedTree tree ∧
      ((∀ base child, .sibling base child ∉ calls) → ChildLists tree) ∧
      ((∃ base child, .sibling base child ∈ calls) → BrokenPair tree) := by
  induction run with
  | nil =>
    obtain ⟨closed, lists⟩ := rootOnly_childLists state node
    exact ⟨closed, fun _ => lists, by simp⟩
  | @snoc middle last calls call _ step ih =>
    obtain ⟨closed, lists, broken⟩ := ih
    refine ⟨step.closed closed, ?_, ?_⟩
    · intro none
      cases call with
      | child parent child =>
        apply (step.putFirst closed).childLists closed
        apply lists
        intro base sibling member
        exact none base sibling (List.mem_append_left _ member)
      | sibling base child => exact absurd (by simp) (none base child)
    · rintro ⟨base, sibling, member⟩
      cases call with
      | child parent child =>
        apply (step.putFirst closed).broken
        apply broken
        exact ⟨base, sibling, by simpa using member⟩
      | sibling base child => exact (step.putBehind closed).broken

/-- **Sibling links.** After every run of registrations from the root, `Next` and `Previous` are
inverse to each other exactly when no registration of the run was one of a sibling. -/
theorem siblings_mutual_iff (run : Run RegisterStep (.rootOnly state node) calls tree) :
    MutualSiblings tree ↔ ∀ base child, .sibling base child ∉ calls := by
  obtain ⟨_, lists, broken⟩ := registrations_run run
  constructor
  · intro inverse base child member
    exact (broken ⟨base, child, member⟩).not_mutual inverse
  · intro none
    exact (lists none).inverse

end Runs

/-- A new node beside a tree. -/
def madeBeside (state : KernelState 32 Unit) : KernelState 32 Unit :=
  stateAfter (newVNode .next vfsSystem) state

/-- The root with one child. -/
def rootAndChild : KernelState 32 Unit :=
  stateAfter (registerChildVNode (some rootVNode) (some 1)) (madeBeside (.bareRoot 32 ()))

/-- The root with two children. -/
def rootAndChildren : KernelState 32 Unit :=
  stateAfter (registerChildVNode (some rootVNode) (some 2)) (madeBeside rootAndChild)

/-- The root with a child and a sibling of that. -/
def rootAndSibling : KernelState 32 Unit :=
  stateAfter (registerSiblingVNode (some 1) (some 2)) (madeBeside rootAndChild)

/-- The first registration of the samples. -/
theorem sample_child : Run RegisterStep (.rootOnly (.zero 32 ()) .zero) [.child rootVNode 1]
    ⟨rootAndChild, [1, rootVNode]⟩ := by
  have fresh : Fresh (.rootOnly (.zero 32 ()) .zero) (madeBeside (.bareRoot 32 ())) 1 :=
    ⟨by decide +kernel, by decide +kernel, by decide +kernel, by decide +kernel,
      by decide +kernel⟩
  exact .snoc (.nil _)
    (.child List.mem_cons_self fresh (ok_of_resultOf (by decide +kernel)))

/-- Another node made beside the root and its child. -/
theorem sample_fresh : Fresh ⟨rootAndChild, [1, rootVNode]⟩ (madeBeside rootAndChild) 2 :=
  ⟨by decide +kernel, by decide +kernel, by decide +kernel, by decide +kernel, by decide +kernel⟩

/-- The second registration of the sample with two children. -/
theorem sample_secondChild : RegisterStep ⟨rootAndChild, [1, rootVNode]⟩ (.child rootVNode 2)
    ⟨rootAndChildren, [2, 1, rootVNode]⟩ :=
  .child (by decide) sample_fresh (ok_of_resultOf (by decide +kernel))

/-- Two children of the root have links that are inverse to each other. -/
theorem siblings_mutual_iff_children :
    MutualSiblings ⟨rootAndChildren, [2, 1, rootVNode]⟩ ↔
      ∀ base child, .sibling base child ∉
        [Registration.child rootVNode 1, .child rootVNode 2] :=
  siblings_mutual_iff (.snoc sample_child sample_secondChild)

/-- A node registered as a sibling does not lead back to its base. -/
theorem sibling_not_mutual :
    Run RegisterStep (.rootOnly (.zero 32 ()) .zero) [.child rootVNode 1, .sibling 1 2]
        ⟨rootAndSibling, [2, 1, rootVNode]⟩ ∧
      ¬ MutualSiblings ⟨rootAndSibling, [2, 1, rootVNode]⟩ := by
  constructor
  · exact .snoc sample_child
      (.sibling (by decide) (by decide) sample_fresh (ok_of_resultOf (by decide +kernel)))
  · intro inverse
    have backward := (inverse 1 (by decide) 2 (by decide)).mp (by decide +kernel)
    exact absurd backward (by decide +kernel)

end Unarddeg
