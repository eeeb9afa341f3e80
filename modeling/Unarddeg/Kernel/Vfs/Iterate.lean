import Unarddeg.Kernel.Vfs.Children
import Unarddeg.Kernel.Vfs.Composed

/-!
# Iterating over a directory

The children of a directory are visited by paths: `~first` names the newest child, and every
component `~next` behind it the one that was registered before (`walk_iterate`). A path of more
components than there are children raises `PANIC_NOT_FOUND`, `~last` names the child that was
registered first, and `~previous` undoes `~next` (`children_iterated`).
-/

namespace Unarddeg

open Library

variable {width : Nat} {Registers : Type}

/-- `~first` and a number of components `~next`. -/
def iteratePath : (count : Nat) → List UInt8
  | 0 => wordFirst
  | count + 1 => joined (iteratePath count) wordNext

/-- `~next/~previous`. -/
def forthAndBack : List UInt8 := joined wordNext wordPrevious

/-- A path of this kind begins at its base. -/
theorem iteratePath_relative (count : Nat) :
    ∃ rest, iteratePath count = '~'.toUInt8 :: rest := by
  induction count with
  | zero => exact ⟨_, rfl⟩
  | succ count ih =>
    obtain ⟨rest, same⟩ := ih
    unfold iteratePath
    rw [same]
    exact ⟨_, rfl⟩

section Steps

variable {nodes : Address → VNode} {fuel : Nat} {current : Address}

/-- `~next` is one step to the next sibling. -/
theorem walk_wordNext :
    walk nodes fuel (some current) wordNext = orNotFound (nodes current).next := by
  have whole : component wordNext = wordNext := by decide
  have nonempty : wordNext ≠ [] := by decide
  rw [walk_single current whole nonempty]
  rfl

/-- `~previous` is one step to the previous sibling. -/
theorem walk_wordPrevious :
    walk nodes fuel (some current) wordPrevious = orNotFound (nodes current).previous := by
  have whole : component wordPrevious = wordPrevious := by decide
  have nonempty : wordPrevious ≠ [] := by decide
  rw [walk_single current whole nonempty]
  rfl

/-- `~first` is one step to the first child. -/
theorem walk_wordFirst :
    walk nodes fuel (some current) wordFirst = orNotFound (nodes current).firstChild := by
  have whole : component wordFirst = wordFirst := by decide
  have nonempty : wordFirst ≠ [] := by decide
  rw [walk_single current whole nonempty]
  rfl

/-- `~last` is one step to the end of the list of children. -/
theorem walk_wordLast {first : Address} (begins : (nodes current).firstChild = some first) :
    walk nodes fuel (some current) wordLast = (lastSibling nodes fuel first).map some := by
  have whole : component wordLast = wordLast := by decide
  have nonempty : wordLast ≠ [] := by decide
  rw [walk_single current whole nonempty]
  unfold stepComponent
  rw [if_neg (by decide), if_neg (by decide), if_neg (by decide), if_neg (by decide),
    if_neg (by decide), if_pos (by decide), begins]

/-- A component behind a path is one more walk. -/
theorem walk_joined (front rest : List UInt8) (start : Pointer) {middle : Address}
    (first : walk nodes fuel start front = .ok (some middle)) :
    walk nodes fuel start (joined front rest) = walk nodes fuel (some middle) rest := by
  unfold joined
  rw [walk_append, first]
  apply walk_slash

end Steps

section Lists

variable {tree : NodeTree width Registers} {directory : Address} {children : List Address}
  {fuel : Nat}

/-- The next sibling of a child is the child behind it in the list. -/
theorem ChildList.next_getElem? (list : ChildList tree directory children) {index : Nat}
    {child : Address} (here : children[index]? = some child) :
    (tree.state.node child).next = children[index + 1]? := by
  obtain ⟨inside, same⟩ := List.getElem?_eq_some_iff.mp here
  have split : children = children.take index ++ child :: children.drop (index + 1) := by
    rw [← same, List.cons_getElem_drop_succ, List.take_append_drop]
  have forward := list.forward
  rw [split] at forward
  have next := forward.next_eq
  rw [Option.or_none, List.head?_drop] at next
  exact next

/-- The previous sibling of a child is the child before it in the list. -/
theorem ChildList.previous_getElem? (list : ChildList tree directory children) {index : Nat}
    {child following : Address} (here : children[index]? = some child)
    (behind : children[index + 1]? = some following) :
    (tree.state.node following).previous = some child := by
  have next := list.next_getElem? here
  rw [behind] at next
  have inside : child ∈ children := List.mem_of_getElem? here
  have followingInside : following ∈ children := List.mem_of_getElem? behind
  exact (links_inverse list.forward list.backward inside followingInside).mp next

/-- What a walk ends with at a place of a list: the child there, or the panic that there is none. -/
def placeResult : Option Address → Except Stop Pointer
  | some child => .ok (some child)
  | none => .error (.panic .notFound)

/-- Where a walk must not be null it ends with the node or the panic. -/
theorem orNotFound_eq (pointer : Pointer) : orNotFound pointer = placeResult pointer := by
  cases pointer <;> rfl

/-- `~first` and some components `~next` lead to the child at this place of the list. The induction
is on the number of components. -/
theorem ChildList.walk_iterate (list : ChildList tree directory children) (count : Nat) :
    walk tree.state.node fuel (some directory) (iteratePath count) =
      placeResult children[count]? := by
  induction count with
  | zero =>
    have begins := list.forward.start_eq
    rw [Option.or_none, List.head?_eq_getElem?] at begins
    unfold iteratePath
    rw [walk_wordFirst, begins, orNotFound_eq]
  | succ count ih =>
    unfold iteratePath
    cases here : children[count]? with
    | none =>
      have past : children.length ≤ count := List.getElem?_eq_none_iff.mp here
      have alsoPast : children[count + 1]? = none := by
        apply List.getElem?_eq_none
        omega
      rw [here] at ih
      unfold joined
      rw [walk_append, ih, alsoPast]
      rfl
    | some child =>
      rw [here] at ih
      rw [walk_joined _ _ _ ih, walk_wordNext, list.next_getElem? here, orNotFound_eq]

/-- A child that is no link is the end of its path. -/
theorem followLink_placeResult {nodes : Address → VNode} {place : Option Address}
    (noLink : ∀ child, place = some child → hasFlag (nodes child).flags vfsLink = false) :
    (placeResult place).bind (followLink nodes) = placeResult place := by
  cases place with
  | none => rfl
  | some child =>
    have plain := noLink child rfl
    simp [placeResult, Except.bind, followLink, plain]

/-- The paths of an iteration resolve to the children in the order of the list. -/
theorem ChildList.relativeFind_iterate (list : ChildList tree directory children)
    (noLinks : ∀ child ∈ children, hasFlag (tree.state.node child).flags vfsLink = false)
    (count : Nat) :
    relativeFind tree.state.node fuel (some directory) (iteratePath count) =
      placeResult children[count]? := by
  have start : walkStart directory (iteratePath count) = directory := by
    obtain ⟨rest, same⟩ := iteratePath_relative count
    have other : '~'.toUInt8 ≠ slash := by decide
    rw [same]
    apply if_neg
    intro separator
    exact other (Option.some.inj separator)
  rw [Unarddeg.relativeFind_eq, start, list.walk_iterate]
  apply followLink_placeResult
  intro child here
  exact noLinks child (List.mem_of_getElem? here)

/-- `~last` resolves to the last child of the list. -/
theorem ChildList.relativeFind_last (list : ChildList tree directory children)
    (noLinks : ∀ child ∈ children, hasFlag (tree.state.node child).flags vfsLink = false)
    (nonempty : children ≠ []) (enough : children.length ≤ fuel) :
    relativeFind tree.state.node fuel (some directory) wordLast =
      placeResult children.getLast? := by
  have start : walkStart directory wordLast = directory := if_neg (by decide)
  obtain ⟨first, rest, rfl⟩ := List.exists_cons_of_ne_nil nonempty
  have begins := list.forward.start_eq
  have forward := list.forward
  rw [begins] at forward
  obtain ⟨last, there, found⟩ := lastSibling_eq forward enough
  have whole : (lastSibling tree.state.node fuel first).map some = placeResult (some last) := by
    rw [found]
    rfl
  rw [Unarddeg.relativeFind_eq, start, walk_wordLast begins, whole, there]
  apply followLink_placeResult
  intro child same
  obtain rfl := Option.some.inj same
  exact noLinks _ (List.mem_of_getLast? there)

/-- `~next/~previous` resolves to the child where it begins, if that is not the last one. -/
theorem ChildList.relativeFind_forthAndBack (list : ChildList tree directory children)
    (noLinks : ∀ child ∈ children, hasFlag (tree.state.node child).flags vfsLink = false)
    {index : Nat} {child : Address} (here : children[index]? = some child)
    (later : index + 1 < children.length) :
    relativeFind tree.state.node fuel (some child) forthAndBack = .ok (some child) := by
  have start : walkStart child forthAndBack = child := if_neg (by decide)
  have behind : children[index + 1]? = some children[index + 1] := List.getElem?_eq_getElem later
  have forth : walk tree.state.node fuel (some child) wordNext =
      .ok (some children[index + 1]) := by
    rw [walk_wordNext, list.next_getElem? here, behind]
    rfl
  have back : walk tree.state.node fuel (some children[index + 1]) wordPrevious =
      placeResult (some child) := by
    rw [walk_wordPrevious, list.previous_getElem? here behind]
    rfl
  unfold forthAndBack at start ⊢
  rw [Unarddeg.relativeFind_eq, start, walk_joined _ _ _ forth, back]
  apply followLink_placeResult
  intro same equal
  obtain rfl := Option.some.inj equal
  exact noLinks _ (List.mem_of_getElem? here)

end Lists

section Runs

variable {state : KernelState width Registers} {node : VNode} {tree : NodeTree width Registers}
  {calls : List Registration} {directory : Address} {fuel : Nat}

/-- **Iteration.** In a directory with children that were registered with `RegisterChildVNode` and
are no links, `~first` and some components `~next` name the children, the newest first and each one
once; one component more raises `PANIC_NOT_FOUND`. `~last` names the child that was registered
first, and `~next/~previous` leads from every child but this one back to itself. -/
theorem children_iterated (run : Run RegisterStep (.rootOnly state node) calls tree)
    (member : directory ∈ tree.members) (only : OnlyChildren calls directory)
    (noLinks : ∀ child ∈ registeredUnder calls directory,
      hasFlag (tree.state.node child).flags vfsLink = false)
    (some_child : registeredUnder calls directory ≠ [])
    (enough : (registeredUnder calls directory).length ≤ fuel) :
    (registeredUnder calls directory).Nodup ∧
      (∀ index child, (registeredUnder calls directory)[index]? = some child →
        relativeFind tree.state.node fuel (some directory) (iteratePath index) =
          .ok (some child)) ∧
      relativeFind tree.state.node fuel (some directory)
        (iteratePath (registeredUnder calls directory).length) = .error (.panic .notFound) ∧
      (∀ child, (registeredUnder calls directory).getLast? = some child →
        relativeFind tree.state.node fuel (some directory) wordLast = .ok (some child)) ∧
      ∀ index child, (registeredUnder calls directory)[index]? = some child →
        index + 1 < (registeredUnder calls directory).length →
        relativeFind tree.state.node fuel (some child) forthAndBack = .ok (some child) := by
  have list := (childLists_run run).2.2 directory member only
  have iterate := fun count => @ChildList.relativeFind_iterate _ _ _ _ _ fuel list noLinks count
  constructor
  · exact list.forward.nodup
  constructor
  · intro index child here
    rw [iterate, here]
    rfl
  constructor
  · have past : (registeredUnder calls directory)[(registeredUnder calls directory).length]? =
        none := List.getElem?_eq_none (Nat.le_refl _)
    rw [iterate, past]
    rfl
  constructor
  · intro child last
    rw [list.relativeFind_last noLinks some_child enough, last]
    rfl
  · intro index child here later
    exact list.relativeFind_forthAndBack noLinks here later

end Runs

/-- Two children of the root are visited. -/
theorem children_iterated_two :
    (registeredUnder [.child rootVNode 1, .child rootVNode 2] rootVNode).Nodup ∧
      (∀ index child, (registeredUnder [.child rootVNode 1, .child rootVNode 2] rootVNode)[index]? =
          some child →
        relativeFind rootAndChildren.node 2 (some rootVNode) (iteratePath index) =
          .ok (some child)) ∧
      relativeFind rootAndChildren.node 2 (some rootVNode) (iteratePath 2) =
        .error (.panic .notFound) ∧
      (∀ child, (registeredUnder [.child rootVNode 1, .child rootVNode 2] rootVNode).getLast? =
          some child →
        relativeFind rootAndChildren.node 2 (some rootVNode) wordLast = .ok (some child)) ∧
      ∀ index child, (registeredUnder [.child rootVNode 1, .child rootVNode 2] rootVNode)[index]? =
          some child →
        index + 1 < 2 →
        relativeFind rootAndChildren.node 2 (some child) forthAndBack = .ok (some child) :=
  children_iterated (.snoc sample_child sample_secondChild) (by decide) sample_onlyChildren
    (by decide +kernel) (by decide) (by decide)

end Unarddeg
