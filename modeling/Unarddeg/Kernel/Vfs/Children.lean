import Unarddeg.Kernel.Vfs.Siblings
import Unarddeg.Kernel.Vfs.Folded

/-!
# Lists of children

The children of a node that are registered with `RegisterChildVNode` stand in a list, the newest
first (`ChildList`). `RelativeFind` looks a name up in that list, and `UnregisterVNode` takes a node
out of it. Nobody sets `Parent`, by which `UnregisterVNode` finds the first link of the list, so it
leaves that link on the node that it takes out (`unregister_iff`).
-/

namespace Unarddeg

open Library

variable {width : Nat} {Registers : Type}

/-- The node that a call registers. -/
def Registration.added : Registration → Address
  | .child _ new => new
  | .sibling _ new => new

/-- The child that a call registers under a node. -/
def Registration.under (parent : Address) : Registration → Option Address
  | .child above new => if above = parent then some new else none
  | .sibling _ _ => none

/-- The children registered under a node, the newest first. -/
def registeredUnder (calls : List Registration) (parent : Address) : List Address :=
  (calls.filterMap (Registration.under parent)).reverse

/-- No node is registered behind one of the children of a node. -/
def OnlyChildren (calls : List Registration) (parent : Address) : Prop :=
  ∀ base child, .sibling base child ∈ calls → base ∉ registeredUnder calls parent

/-- A registration of a node that `NewVNode` left without a parent. -/
def OrphanStep (tree : NodeTree width Registers) (call : Registration)
    (after : NodeTree width Registers) : Prop :=
  RegisterStep tree call after ∧ (after.state.node call.added).parent = none

/-- The children of a node of a tree stand in a list that is linked both ways, and nothing else
leads into the list. -/
structure ChildList (tree : NodeTree width Registers) (parent : Address)
    (children : List Address) : Prop where
  /-- The list starts at the first child and goes on with the next siblings. -/
  forward : Segment (fun child => (tree.state.node child).next)
    (tree.state.node parent).firstChild children none
  /-- The previous siblings lead back. -/
  backward : Backlinked (fun child => (tree.state.node child).previous) none children
  /-- The children are nodes of the tree. -/
  inside : ∀ child ∈ children, child ∈ tree.members
  /-- No other node has one of them as its first child. -/
  own : ∀ other ∈ tree.members, ∀ child ∈ children,
    (tree.state.node other).firstChild = some child → other = parent
  /-- Only children have one of them as the next sibling. -/
  before : ∀ other ∈ tree.members, ∀ child ∈ children,
    (tree.state.node other).next = some child → other ∈ children

section Registered

variable {calls : List Registration} {call : Registration} {parent : Address}

/-- One more call registers its child in front of the others. -/
theorem registeredUnder_append : registeredUnder (calls ++ [call]) parent =
    (call.under parent).toList ++ registeredUnder calls parent := by
  unfold registeredUnder
  rw [List.filterMap_append, List.reverse_append]
  cases under : call.under parent <;> simp [under]

/-- Without a last call there were only children as well. -/
theorem OnlyChildren.front (only : OnlyChildren (calls ++ [call]) parent) :
    OnlyChildren calls parent := by
  intro base child member inside
  apply only base child (List.mem_append_left _ member)
  rw [registeredUnder_append]
  exact List.mem_append_right _ inside

end Registered

section Step

variable {tree after : NodeTree width Registers} {parent above base child : Address}
  {children : List Address}

/-- A new node has no children yet. -/
theorem ChildList.nil (empty : (tree.state.node parent).firstChild = none) :
    ChildList tree parent [] := by
  constructor
  · exact empty
  · trivial
  · simp
  · simp
  · simp

/-- A list stays when its links and those into it do. -/
theorem ChildList.congr (list : ChildList tree parent children)
    (first : (after.state.node parent).firstChild = (tree.state.node parent).firstChild)
    (next : ∀ later ∈ children, (after.state.node later).next = (tree.state.node later).next)
    (previous : ∀ later ∈ children,
      (after.state.node later).previous = (tree.state.node later).previous)
    (inside : ∀ address ∈ tree.members, address ∈ after.members)
    (own : ∀ other ∈ after.members, ∀ address ∈ children,
      (after.state.node other).firstChild = some address → other = parent)
    (before : ∀ other ∈ after.members, ∀ address ∈ children,
      (after.state.node other).next = some address → other ∈ children) :
    ChildList after parent children where
  forward := by
    rw [first]
    exact list.forward.congr next
  backward := list.backward.congr previous
  inside address old := inside address (list.inside address old)
  own := own
  before := before

/-- A registration under a node puts the child in front of its list. -/
theorem PutFirst.childList_cons (put : PutFirst tree after parent child)
    (closed : ClosedTree tree) (list : ChildList tree parent children) :
    ChildList after parent (child :: children) := by
  have outside := put.outside
  have apart : ∀ address ∈ tree.members, address ≠ child := fun address inside same =>
    outside (same ▸ inside)
  have first : (after.state.node parent).firstChild = some child := by
    rw [put.old parent put.parentMember]
    exact if_pos rfl
  have distinct := list.forward.nodup
  have head := list.forward.start_eq
  rw [Option.or_none] at head
  constructor
  · rw [first]
    apply list.forward.insert put.next
    intro later member
    rw [put.old later (list.inside later member)]
  · apply list.backward.insert put.previous
    · intro later here
      have member : later ∈ children := List.mem_of_head? here
      rw [put.old later (list.inside later member)]
      exact if_pos (here.symm.trans head.symm)
    · intro later member
      have old : later ∈ children := List.mem_of_mem_tail member
      rw [put.old later (list.inside later old)]
      apply if_neg
      intro same
      rw [head] at same
      obtain ⟨rest, rfl⟩ := List.head?_eq_some_iff.mp same.symm
      exact (List.nodup_cons.mp distinct).1 member
  · intro address member
    rw [put.members]
    rcases List.mem_cons.mp member with rfl | old
    · exact List.mem_cons_self
    · exact List.mem_cons_of_mem _ (list.inside address old)
  · intro other otherMember address member points
    rw [put.members] at otherMember
    rcases List.mem_cons.mp otherMember with rfl | otherOld
    · simp [put.firstChild] at points
    · rw [put.old other otherOld] at points
      dsimp only at points
      split at points
      · assumption
      · rcases List.mem_cons.mp member with rfl | old
        · exact absurd (closed.firstChild other otherOld address points) outside
        · exact list.own other otherOld address old points
  · intro other otherMember address member points
    rw [put.members] at otherMember
    rcases List.mem_cons.mp otherMember with rfl | otherOld
    · exact List.mem_cons_self
    · rw [put.old other otherOld] at points
      rcases List.mem_cons.mp member with rfl | old
      · exact absurd (closed.next other otherOld address points) outside
      · exact List.mem_cons_of_mem _ (list.before other otherOld address old points)

/-- A registration under another node keeps a list. -/
theorem PutFirst.childList_other (put : PutFirst tree after above child)
    (list : ChildList tree parent children)
    (member : parent ∈ tree.members) (different : above ≠ parent) :
    ChildList after parent children := by
  have outside := put.outside
  have next : ∀ later ∈ children,
      (after.state.node later).next = (tree.state.node later).next := by
    intro later old
    rw [put.old later (list.inside later old)]
  have previous : ∀ later ∈ children,
      (after.state.node later).previous = (tree.state.node later).previous := by
    intro later old
    rw [put.old later (list.inside later old)]
    apply if_neg
    intro same
    exact different (list.own above put.parentMember later old same.symm)
  have first : (after.state.node parent).firstChild = (tree.state.node parent).firstChild := by
    rw [put.old parent member]
    exact if_neg (Ne.symm different)
  apply list.congr first next previous
  · intro address old
    rw [put.members]
    exact List.mem_cons_of_mem _ old
  · intro other otherMember address old points
    rw [put.members] at otherMember
    rcases List.mem_cons.mp otherMember with rfl | otherOld
    · simp [put.firstChild] at points
    · rw [put.old other otherOld] at points
      dsimp only at points
      split at points
      · cases points
        exact absurd (list.inside child old) outside
      · exact list.own other otherOld address old points
  · intro other otherMember address old points
    rw [put.members] at otherMember
    rcases List.mem_cons.mp otherMember with rfl | otherOld
    · rw [put.next] at points
      exact absurd (list.own above put.parentMember address old points) different
    · rw [put.old other otherOld] at points
      exact list.before other otherOld address old points

/-- A registration behind a node outside a list keeps the list. -/
theorem PutBehind.childList (put : PutBehind tree after base child)
    (list : ChildList tree parent children)
    (member : parent ∈ tree.members) (different : base ∉ children) :
    ChildList after parent children := by
  have outside := put.outside
  have next : ∀ later ∈ children,
      (after.state.node later).next = (tree.state.node later).next := by
    intro later old
    rw [put.old later (list.inside later old)]
    apply if_neg
    intro same
    exact different (same ▸ old)
  have previous : ∀ later ∈ children,
      (after.state.node later).previous = (tree.state.node later).previous := by
    intro later old
    rw [put.old later (list.inside later old)]
    apply if_neg
    intro same
    exact different (list.before base put.baseMember later old same.symm)
  have first : (after.state.node parent).firstChild = (tree.state.node parent).firstChild := by
    rw [put.old parent member]
  apply list.congr first next previous
  · intro address old
    rw [put.members]
    exact List.mem_cons_of_mem _ old
  · intro other otherMember address old points
    rw [put.members] at otherMember
    rcases List.mem_cons.mp otherMember with rfl | otherOld
    · simp [put.firstChild] at points
    · rw [put.old other otherOld] at points
      exact list.own other otherOld address old points
  · intro other otherMember address old points
    rw [put.members] at otherMember
    rcases List.mem_cons.mp otherMember with rfl | otherOld
    · rw [put.next] at points
      exact absurd (list.before base put.baseMember address old points) different
    · rw [put.old other otherOld] at points
      dsimp only at points
      split at points
      · cases points
        exact absurd (list.inside child old) outside
      · exact list.before other otherOld address old points

end Step

section Runs

variable {state : KernelState width Registers} {node : VNode} {tree : NodeTree width Registers}
  {calls : List Registration} {parent : Address}

/-- After every run the children registered under a node stand in its list, and only nodes of the
tree have some. -/
theorem childLists_run (run : Run RegisterStep (.rootOnly state node) calls tree) :
    ClosedTree tree ∧ (∀ parent, parent ∉ tree.members → registeredUnder calls parent = []) ∧
      ∀ parent ∈ tree.members, OnlyChildren calls parent →
        ChildList tree parent (registeredUnder calls parent) := by
  induction run with
  | nil =>
    refine ⟨(rootOnly_childLists state node).1, fun _ _ => rfl, fun parent member _ => ?_⟩
    apply ChildList.nil
    obtain rfl := List.mem_singleton.mp member
    simp [NodeTree.rootOnly, vNodeDefault]
  | @snoc middle last calls call earlier step ih =>
    obtain ⟨closed, nobody, lists⟩ := ih
    refine ⟨step.closed closed, ?_, ?_⟩
    · intro parent absent
      rw [registeredUnder_append]
      cases call with
      | child above child =>
        have put := step.putFirst closed
        rw [put.members] at absent
        have old := nobody parent fun member => absent (List.mem_cons_of_mem _ member)
        have other : above ≠ parent := fun same =>
          absent (List.mem_cons_of_mem _ (same ▸ put.parentMember))
        simp [Registration.under, other, old]
      | sibling base child =>
        have put := step.putBehind closed
        rw [put.members] at absent
        exact nobody parent fun member => absent (List.mem_cons_of_mem _ member)
    · intro parent member only
      have before := lists parent
      cases call with
      | child above child =>
        have put := step.putFirst closed
        rw [registeredUnder_append]
        rw [put.members] at member
        rcases List.mem_cons.mp member with rfl | old
        · have other : above ≠ parent := fun same => put.outside (same ▸ put.parentMember)
          have empty := nobody parent put.outside
          simp only [Registration.under, if_neg other, empty, Option.toList_none,
            List.append_nil]
          exact ChildList.nil put.firstChild
        · have list := before old only.front
          by_cases same : above = parent
          · subst same
            simpa [Registration.under] using put.childList_cons closed list
          · simpa [Registration.under, same] using put.childList_other list old same
      | sibling base child =>
        have put := step.putBehind closed
        have apart : base ∉ registeredUnder calls parent := by
          have absent := only base child (by simp)
          rwa [registeredUnder_append] at absent
        rw [registeredUnder_append]
        rw [put.members] at member
        rcases List.mem_cons.mp member with rfl | old
        · rw [nobody parent put.outside]
          exact ChildList.nil put.firstChild
        · exact put.childList (before old only.front) old apart

end Runs

/-! ## Looking a name up -/

/-- The components that are no names. -/
def pathWords : List (List UInt8) :=
  [wordDotDot, wordParent, wordDot, wordSelf, wordNext, wordPrevious, wordFirst, wordLast]

/-- A name that a path can hold as one component. -/
structure PlainName (name : List UInt8) : Prop where
  /-- It is not empty and fits the buffer. -/
  length : 1 ≤ name.length ∧ name.length ≤ componentLimit
  /-- It has no zero byte and no separator. -/
  bytes : ∀ byte ∈ name, byte ≠ 0 ∧ byte ≠ slash
  /-- It is none of the words. -/
  word : name ∉ pathWords

/-- What a lookup returns: the node, or the panic that there is none. -/
def lookupResult (state : KernelState width Registers) :
    Option Address → EStateM.Result Stop (KernelState width Registers) Pointer
  | some child => .ok (some child) state
  | none => .error (.panic .notFound) state

section Lookup

variable {state : KernelState width Registers} {node : VNode} {tree : NodeTree width Registers}
  {calls : List Registration} {directory : Address} {children : List Address}
  {name : List UInt8} {fuel : Nat}

/-- A name without a separator that fits the buffer is one component. -/
theorem PlainName.component_eq (plain : PlainName name) : component name = name := by
  have whole : name.takeWhile (· ≠ slash) = name := by
    apply List.takeWhile_eq_self_iff.mpr
    intro byte member
    simpa using (plain.bytes byte member).2
  rw [component, whole]
  exact List.take_of_length_le plain.length.2

/-- A name is looked up among the children of its directory. -/
theorem PlainName.stepComponent_eq (plain : PlainName name) {nodes : Address → VNode}
    {current : Address} (loaded : hasFlag (nodes current).flags vfsOnDisk = false) :
    stepComponent nodes fuel current name =
      (findChild nodes name fuel (nodes current).firstChild).bind orNotFound :=
  stepComponent_child plain.word loaded

/-- A name leads from a directory to the first of its children with the name. -/
theorem ChildList.relativeFind_eq (list : ChildList tree directory children)
    (loaded : hasFlag (tree.state.node directory).flags vfsOnDisk = false)
    (noLinks : ∀ child ∈ children, hasFlag (tree.state.node child).flags vfsLink = false)
    (plain : PlainName name) (enough : children.length < fuel) :
    relativeFind tree.state.node fuel (some directory) name =
      match children.find? fun child => (tree.state.node child).fullName = name with
      | some child => .ok (some child)
      | none => .error (.panic .notFound) := by
  have nonempty : name ≠ [] := List.ne_nil_of_length_pos plain.length.1
  have start : walkStart directory name = directory := by
    apply if_neg
    intro separator
    have member := List.mem_of_head? separator
    exact (plain.bytes slash member).2 rfl
  have found := @findChild_eq tree.state.node fuel name
      (fun byte member => (plain.bytes byte member).1)
    _ children list.forward enough
  rw [Unarddeg.relativeFind_eq, start, walk_single directory plain.component_eq nonempty,
    plain.stepComponent_eq loaded, found]
  cases result : children.find? fun child => (tree.state.node child).fullName = name with
  | none => rfl
  | some child =>
    have noLink := noLinks child (List.mem_of_find?_eq_some result)
    simp [Except.bind, orNotFound, followLink, noLink]

/-- **Lookup.** In a directory without `VFS_ONDISK` whose children were registered with
`RegisterChildVNode`, a plain name is looked up as the newest child with exactly this name; if there
is none, `PANIC_NOT_FOUND` is raised. The kernel is unchanged. -/
theorem lookup_newest (run : Run RegisterStep (.rootOnly state node) calls tree)
    (member : directory ∈ tree.members) (only : OnlyChildren calls directory)
    (loaded : hasFlag (tree.state.node directory).flags vfsOnDisk = false)
    (noLinks : ∀ child ∈ registeredUnder calls directory,
      hasFlag (tree.state.node child).flags vfsLink = false)
    (plain : PlainName name) (enough : (registeredUnder calls directory).length < fuel) :
    ofExcept (relativeFind tree.state.node fuel (some directory) name) tree.state =
      lookupResult tree.state ((registeredUnder calls directory).find? fun child =>
        (tree.state.node child).fullName = name) := by
  have list := (childLists_run run).2.2 directory member only
  rw [list.relativeFind_eq loaded noLinks plain enough]
  cases (registeredUnder calls directory).find? fun child =>
    (tree.state.node child).fullName = name with
  | none => rfl
  | some child => rfl

end Lookup

/-- No sibling is registered in the sample. -/
theorem sample_onlyChildren :
    OnlyChildren [.child rootVNode 1, .child rootVNode 2] rootVNode := by
  intro base child member
  simp at member

/-- The name that `VNodeDefault` gives on 32 bits. -/
def defaultName : List UInt8 := cString ['~', 'U', 'n', 'k']

/-- The newest of two children with one name is found. -/
theorem lookup_newest_sample :
    ofExcept (relativeFind rootAndChildren.node 3 (some rootVNode) defaultName) rootAndChildren =
      lookupResult rootAndChildren (some 2) := by
  have plain : PlainName defaultName := by
    constructor
    · decide +kernel
    · decide +kernel
    · decide +kernel
  have found : (registeredUnder [.child rootVNode 1, .child rootVNode 2] rootVNode).find?
      (fun child => (rootAndChildren.node child).fullName = defaultName) = some 2 := by
    decide +kernel
  have run : Run RegisterStep (.rootOnly (.zero 32 ()) .zero)
      [.child rootVNode 1, .child rootVNode 2] ⟨rootAndChildren, [2, 1, rootVNode]⟩ :=
    .snoc sample_child sample_secondChild
  have newest := @lookup_newest _ _ _ _ _ _ rootVNode defaultName 3 run (by decide)
    sample_onlyChildren (by decide +kernel) (by decide +kernel) plain (by decide)
  rwa [found] at newest

/-! ## Taking a node out -/

/-- A node was taken out of the list of children of its parent, and the rest of the tree is as it
was. -/
structure TakenOut (before after : KernelState width Registers) (parent child : Address)
    (children : List Address) : Prop where
  /-- The other children are reached from the parent in the same order. -/
  forward : Segment (fun address => (after.node address).next) (after.node parent).firstChild
    (children.erase child) none
  /-- Their previous siblings lead back. -/
  backward : Backlinked (fun address => (after.node address).previous) none (children.erase child)
  /-- The node has no link to a sibling or a parent. -/
  unlinked : (after.node child).next = none ∧ (after.node child).previous = none ∧
    (after.node child).parent = none
  /-- Other nodes than the parent and the children are unchanged. -/
  others : ∀ address, address ≠ parent → address ∉ children →
    after.node address = before.node address
  /-- The parent and the other children are unchanged but for the links of the list. -/
  links : ∀ address, address ≠ child → ∃ firstChild next previous, after.node address =
    { before.node address with firstChild, next, previous }

section TakeOut

variable {state : KernelState width Registers} {node : VNode} {tree : NodeTree width Registers}
  {calls : List Registration} {parent child : Address} {children : List Address}

/-- `UnregisterVNode` of a node without a parent link returns. -/
theorem unregisterVNode_returns {before : KernelState width Registers}
    (orphan : (before.node child).parent = none)
    (notPrevious : (before.node child).previous ≠ some child)
    (notNext : (before.node child).next ≠ some child) :
    unregisterVNode (some child) before =
      .ok () { before with node := detach before.node child } := by
  have returned : ∃ after, unregisterVNode (some child) before = .ok () after := by
    have first : assignAt before.node (before.node child).previous
        (fun previous => { previous with next := (before.node child).next }) child =
          before.node child := by
      rw [assignAt, if_neg notPrevious]
    have second : assignAt (assignAt before.node (before.node child).previous
        (fun previous => { previous with next := (before.node child).next }))
        (before.node child).next
        (fun next => { next with previous := (before.node child).previous }) child =
          before.node child := by
      rw [assignAt, if_neg notNext, first]
    exact ⟨_, bind_ok.mpr ⟨(), _, panicIf_ok.mpr ⟨by simp, rfl⟩,
      bind_ok.mpr ⟨_, _, readNode_ok.mpr ⟨child, rfl, rfl, rfl⟩,
      bind_ok.mpr ⟨(), _, guarded_writeNode_ok.mpr rfl,
      bind_ok.mpr ⟨_, _, readNode_ok.mpr ⟨child, rfl, first, rfl⟩,
      bind_ok.mpr ⟨(), _, guarded_writeNode_ok.mpr rfl,
      bind_ok.mpr ⟨_, _, readNode_ok.mpr ⟨child, rfl, second, rfl⟩,
      bind_ok.mpr ⟨(), _, onlyIf_ok.mpr (.inr ⟨by simp [orphan], rfl⟩),
      writeNode_ok.mpr ⟨child, rfl, rfl⟩⟩⟩⟩⟩⟩⟩⟩⟩
  obtain ⟨after, done⟩ := returned
  rw [done, unregisterVNode_ok orphan notPrevious notNext done]

/-- The children around one of them. -/
theorem ChildList.split (list : ChildList tree parent children) (inside : child ∈ children) :
    ∃ front rest, children = front ++ child :: rest ∧ children.erase child = front ++ rest ∧
      child ∉ front ∧ child ∉ rest ∧ (tree.state.node child).next = rest.head? ∧
      (tree.state.node child).previous = front.getLast? := by
  obtain ⟨front, rest, rfl⟩ := List.append_of_mem inside
  have distinct := list.forward.nodup
  have absent : child ∉ front := fun member =>
    (List.nodup_append.mp distinct).2.2 child member child List.mem_cons_self rfl
  have next := list.forward.next_eq
  have previous := list.backward.previous_eq
  rw [Option.or_none] at next previous
  refine ⟨front, rest, rfl, ?_, absent, ?_, next, previous⟩
  · rw [List.erase_append_right _ absent, List.erase_cons_head]
  · exact (List.nodup_cons.mp (List.nodup_append.mp distinct).2.1).1

/-- A child that is taken out of the middle or the end of its list leaves the others. -/
theorem ChildList.takenOut (list : ChildList tree parent children) (inside : child ∈ children)
    (orphan : (tree.state.node child).parent = none) (later : children.head? ≠ some child) :
    TakenOut tree.state { tree.state with node := detach tree.state.node child } parent child
      children := by
  obtain ⟨front, rest, rfl, erased, notFront, notRest, next, previous⟩ := list.split inside
  have nonempty : front ≠ [] := by
    rintro rfl
    exact later rfl
  constructor
  · have removed := @Segment.remove _ _
      (fun address => (detach tree.state.node child address).next) _ front rest child _
      list.forward ?_ ?_
    · rw [if_neg nonempty] at removed
      rw [erased]
      exact removed
    · intro last ends
      have other : last ≠ child := fun same =>
        notFront (List.mem_of_getLast? (same ▸ ends))
      simp only [detach, if_neg other, previous, ends, if_true]
    · intro address other notLast
      simp only [detach, if_neg other, previous, if_neg (Ne.symm notLast)]
  · rw [erased]
    apply list.backward.remove
    · intro address begins
      have other : address ≠ child := fun same =>
        notRest (List.mem_of_head? (same ▸ begins))
      simp only [detach, if_neg other, next, begins, if_true]
    · intro address member
      have other : address ≠ child := fun same => notFront (same ▸ member)
      have notNext : some address ≠ rest.head? := by
        intro same
        have distinct := (List.nodup_append.mp list.forward.nodup).2.2
        have behind : address ∈ child :: rest :=
          List.mem_cons_of_mem _ (List.mem_of_head? same.symm)
        exact distinct address member address behind rfl
      simp only [detach, if_neg other, next, if_neg notNext]
    · intro address member
      have inRest : address ∈ rest := List.mem_of_mem_tail member
      have other : address ≠ child := fun same => notRest (same ▸ inRest)
      have notNext : some address ≠ rest.head? := by
        intro same
        obtain ⟨tail, rfl⟩ := List.head?_eq_some_iff.mp same.symm
        have distinct := (List.nodup_append.mp list.forward.nodup).2.1
        exact (List.nodup_cons.mp (List.nodup_cons.mp distinct).2).1 member
      simp only [detach, if_neg other, next, if_neg notNext]
  · simp [detach, orphan]
  · intro address _ absent
    have other : address ≠ child := fun same => absent (same ▸ inside)
    have notNext : some address ≠ rest.head? := by
      intro same
      apply absent
      have member := List.mem_of_head? same.symm
      simp [member]
    have notPrevious : some address ≠ front.getLast? := by
      intro same
      apply absent
      have member := List.mem_of_getLast? same.symm
      simp [member]
    simp only [detach, if_neg other, next, previous, if_neg notNext, if_neg notPrevious]
  · intro address _
    exact ⟨_, _, _, rfl⟩

/-- The first child of a list stays the first one when it is taken out. -/
theorem ChildList.not_takenOut (list : ChildList tree parent children)
    (first : children.head? = some child) :
    ¬ TakenOut tree.state { tree.state with node := detach tree.state.node child } parent child
      children := by
  intro taken
  obtain ⟨rest, rfl⟩ := List.head?_eq_some_iff.mp first
  have absent := (List.nodup_cons.mp list.forward.nodup).1
  have begins := list.forward.start_eq
  have start := taken.forward.start_eq
  rw [List.erase_cons_head, Option.or_none] at start
  have same : rest.head? = some child := start.symm.trans begins
  exact absent (List.mem_of_head? same)

/-- A step of a registration is one without the condition on its node. -/
theorem OrphanStep.run (run : Run OrphanStep (.rootOnly state node) calls tree) :
    Run RegisterStep (.rootOnly state node) calls tree := by
  apply run.map id
  intro before call after step
  exact step.1

/-- No node of the tree has a parent link. -/
theorem orphans_run (run : Run OrphanStep (.rootOnly state node) calls tree) :
    ∀ address ∈ tree.members, (tree.state.node address).parent = none := by
  induction run with
  | nil =>
    intro address member
    obtain rfl := List.mem_singleton.mp member
    simp [NodeTree.rootOnly, vNodeDefault]
  | @snoc middle last calls call earlier step ih =>
    have closed := (childLists_run (OrphanStep.run earlier)).1
    intro address member
    cases call with
    | child above child =>
      have put := step.1.putFirst closed
      rw [put.members] at member
      rcases List.mem_cons.mp member with rfl | old
      · exact step.2
      · rw [put.old address old]
        exact ih address old
    | sibling base child =>
      have put := step.1.putBehind closed
      rw [put.members] at member
      rcases List.mem_cons.mp member with rfl | old
      · exact step.2
      · rw [put.old address old]
        exact ih address old

/-- **Removal.** `UnregisterVNode` takes a child that was registered with `RegisterChildVNode` out
of the list of its parent exactly when the child is not the newest one, which stands first in the
list. -/
theorem unregister_iff (run : Run OrphanStep (.rootOnly state node) calls tree)
    (member : parent ∈ tree.members) (only : OnlyChildren calls parent)
    (inside : child ∈ registeredUnder calls parent) :
    ∃ after, unregisterVNode (some child) tree.state = .ok () after ∧
      (TakenOut tree.state after parent child (registeredUnder calls parent) ↔
        (registeredUnder calls parent).head? ≠ some child) := by
  have list := (childLists_run (OrphanStep.run run)).2.2 parent member only
  have orphan := orphans_run run child (list.inside child inside)
  obtain ⟨front, rest, _, _, notFront, notRest, next, previous⟩ := list.split inside
  have notPrevious : (tree.state.node child).previous ≠ some child := by
    rw [previous]
    exact fun same => notFront (List.mem_of_getLast? same)
  have notNext : (tree.state.node child).next ≠ some child := by
    rw [next]
    exact fun same => notRest (List.mem_of_head? same)
  refine ⟨_, unregisterVNode_returns orphan notPrevious notNext, ?_⟩
  constructor
  · intro taken first
    exact list.not_takenOut first taken
  · exact list.takenOut inside orphan

end TakeOut

/-- Two children are registered under the root. -/
theorem sample_orphans : Run OrphanStep (.rootOnly (.zero 32 ()) .zero)
    [.child rootVNode 1, .child rootVNode 2] ⟨rootAndChildren, [2, 1, rootVNode]⟩ := by
  have first : Run OrphanStep (.rootOnly (.zero 32 ()) .zero) [.child rootVNode 1]
      ⟨rootAndChild, [1, rootVNode]⟩ :=
    .snoc (.nil _) ⟨sample_child.single, by decide +kernel⟩
  exact .snoc first ⟨sample_secondChild, by decide +kernel⟩

/-- The older one of two children is taken out. -/
theorem unregister_iff_older :
    ∃ after, unregisterVNode (some 1) rootAndChildren = .ok () after ∧
      (TakenOut rootAndChildren after rootVNode 1 [2, 1] ↔ [2, 1].head? ≠ some 1) :=
  unregister_iff sample_orphans (by decide) sample_onlyChildren (by decide)

/-- The newer one of two children stays the first child of the root, and the older one is lost. -/
theorem newest_not_unregistered :
    ¬ ∀ (tree : NodeTree 32 Unit) (calls : List Registration) (parent child : Address),
      Run OrphanStep (.rootOnly (.zero 32 ()) .zero) calls tree → parent ∈ tree.members →
      OnlyChildren calls parent → child ∈ registeredUnder calls parent →
      ∃ after, unregisterVNode (some child) tree.state = .ok () after ∧
        TakenOut tree.state after parent child (registeredUnder calls parent) := by
  intro claim
  obtain ⟨after, returned, taken⟩ := claim _ _ rootVNode 2 sample_orphans (by decide)
    sample_onlyChildren (by decide)
  have done : after = stateAfter (unregisterVNode (some 2)) rootAndChildren := by
    rw [stateAfter, returned]
  have first : (after.node rootVNode).firstChild = some 2 := by
    rw [done]
    decide +kernel
  have start := taken.forward.start_eq
  rw [first] at start
  exact absurd start (by decide)

end Unarddeg
