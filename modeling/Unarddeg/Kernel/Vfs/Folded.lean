import Unarddeg.Kernel.Vfs.RelativeFind
import Unarddeg.Library.Linked

/-!
# Path resolution as a fold

`DefaultRelativeFindFunction` against its meaning: in a finite tree without nodes on disk it is the
left fold of a step over the components of the path, and one link step behind it. The components
are what stands between separators; the buffer holds 127 bytes, so that the loop takes a longer
one in pieces. The word `..` at a node without parent leads to a null node, on which the fold
has nothing to say.
-/

namespace Unarddeg

open Library

/-! ## Components -/

/-- What stands between the separators of a path, without what is empty. -/
def wordsOf (path : List UInt8) : List (List UInt8) :=
  (path.splitOn slash).filter fun word => word ≠ []

/-- A word in pieces that fit in the buffer, in a number of rounds. -/
def piecesIn : (rounds : Nat) → List UInt8 → List (List UInt8)
  | 0, _ => []
  | rounds + 1, word =>
    if word = [] then [] else
      word.take componentLimit :: piecesIn rounds (word.drop componentLimit)

/-- A word in pieces that fit in the buffer. -/
def pieces (word : List UInt8) : List (List UInt8) := piecesIn word.length word

/-- More rounds than bytes change nothing. -/
theorem piecesIn_rounds (rounds : Nat) (word : List UInt8) (enough : word.length ≤ rounds) :
    piecesIn rounds word = pieces word := by
  unfold pieces
  induction rounds using Nat.strongRecOn generalizing word with
  | ind rounds ih =>
    cases word with
    | nil => cases rounds <;> rfl
    | cons byte rest =>
      obtain ⟨less, rfl⟩ : ∃ less, rounds = less + 1 :=
        ⟨rounds - 1, by simp only [List.length_cons] at enough; omega⟩
      have shorter : ((byte :: rest).drop componentLimit).length ≤ rest.length := by
        simp only [List.length_drop, List.length_cons, componentLimit]
        omega
      simp only [List.length_cons, Nat.add_le_add_iff_right] at enough
      simp only [List.length_cons, piecesIn]
      rw [ih less (by omega) _ (by omega)]
      by_cases same : rest.length = less
      · rw [same, ih less (by omega) _ (by omega)]
      · rw [ih rest.length (by omega) _ shorter]

/-- The first piece of a word and those behind it. -/
theorem pieces_cons (byte : UInt8) (rest : List UInt8) :
    pieces (byte :: rest) = (byte :: rest).take componentLimit ::
      pieces ((byte :: rest).drop componentLimit) := by
  have shorter : ((byte :: rest).drop componentLimit).length ≤ rest.length := by
    simp only [List.length_drop, List.length_cons, componentLimit]
    omega
  rw [pieces, List.length_cons, piecesIn, if_neg (List.cons_ne_nil _ _),
    piecesIn_rounds _ _ shorter]

/-- The bytes before a separator, or all of them. -/
theorem takeWhile_word {word tail : List UInt8} (apart : slash ∉ word)
    (ends : tail.head?.all (· = slash)) : (word ++ tail).takeWhile (· ≠ slash) = word := by
  rw [List.takeWhile_append_of_pos]
  · have stop : tail.takeWhile (· ≠ slash) = [] := by
      cases tail with
      | nil => rfl
      | cons byte tail =>
        have same : byte = slash := by simpa using ends
        simp [same]
    rw [stop, List.append_nil]
  · intro byte member
    have other : byte ≠ slash := fun same => apart (same ▸ member)
    simpa using other

/-- The loop takes a word in its pieces and goes on behind it. -/
theorem components_word {word tail : List UInt8} (apart : slash ∉ word)
    (ends : tail.head?.all (· = slash)) :
    components (word ++ tail) = pieces word ++ components tail := by
  induction length : word.length using Nat.strongRecOn generalizing word with
  | ind count ih =>
    subst length
    cases word with
    | nil => rfl
    | cons byte rest =>
      have other : byte ≠ slash := fun same => apart (same ▸ List.mem_cons_self)
      have taken : component (byte :: (rest ++ tail)) = (byte :: rest).take componentLimit := by
        unfold component
        rw [← List.cons_append, takeWhile_word apart ends]
      have dropped : (byte :: (rest ++ tail)).drop
          ((byte :: rest).take componentLimit).length =
            (byte :: rest).drop componentLimit ++ tail := by
        rw [← List.cons_append, List.length_take, List.drop_append_of_le_length (by omega)]
        congr 1
        by_cases fits : (byte :: rest).length ≤ componentLimit
        · rw [Nat.min_eq_right fits, List.drop_length, List.drop_eq_nil_of_le fits]
        · rw [Nat.min_eq_left (by omega)]
      rw [List.cons_append, components_cons _ other, taken, dropped, pieces_cons,
        List.cons_append]
      congr 1
      apply ih _ _ _ rfl
      · simp only [List.length_drop, List.length_cons, componentLimit]
        omega
      · intro member
        exact apart (List.mem_of_mem_drop member)

/-- The components that the loop takes are the words of the path in pieces. -/
theorem components_eq (path : List UInt8) :
    components path = (path.splitOn slash).flatMap pieces := by
  induction length : path.length using Nat.strongRecOn generalizing path with
  | ind count ih =>
    subst length
    have split := List.takeWhile_append_dropWhile (p := (· ≠ slash)) (l := path)
    have apart : slash ∉ path.takeWhile (· ≠ slash) := by
      intro member
      simpa using List.mem_takeWhile_imp member
    cases rest : path.dropWhile (· ≠ slash) with
    | nil =>
      rw [rest, List.append_nil] at split
      rw [split] at apart
      have whole := @components_word path [] apart rfl
      rw [List.append_nil] at whole
      rw [whole, List.splitOn_eq_singleton apart]
      simp [components, componentsIn]
    | cons byte tail =>
      have same : byte = slash := by
        have stops := List.head?_dropWhile_not (fun byte => byte ≠ slash) path
        rw [rest] at stops
        simpa using stops
      subst same
      rw [rest] at split
      have shorter : tail.length < path.length := by
        rw [← split]
        simp only [List.length_append, List.length_cons]
        omega
      rw [← split, components_word apart (by simp), components_slash, ih _ shorter tail rfl,
        List.splitOn_append_cons_self_of_not_mem apart]
      simp

/-! ## Names -/

/-- The name of a node: as many bytes as its length says. -/
def VNode.fullName (node : VNode) : List UInt8 :=
  (List.range node.name.length).map fun index => node.name.name.getD index 0

/-- A string compares equal to one without zero bytes exactly when it agrees with it there. -/
theorem strncmp_eq_zero_iff {lhs rhs : List UInt8} (plain : ∀ byte ∈ rhs, byte ≠ 0) :
    strncmp lhs rhs rhs.length = 0 ↔ ∀ index < rhs.length, lhs.getD index 0 = rhs.getD index 0 := by
  induction rhs generalizing lhs with
  | nil => simp [strncmp]
  | cons right rhs ih =>
    have nonzero : right ≠ 0 := plain right List.mem_cons_self
    have tails := @ih lhs.tail fun later member => plain later (List.mem_cons_of_mem _ member)
    have later : ∀ index, lhs.tail.getD index 0 = lhs.getD (index + 1) 0 := by
      intro index
      cases lhs <;> rfl
    have first : lhs.headD 0 = lhs.getD 0 0 := by cases lhs <;> rfl
    have round : strncmp lhs (right :: rhs) (rhs.length + 1) =
        if lhs.headD 0 ≠ right ∨ lhs.headD 0 = 0 then ((lhs.headD 0).toNat : Int) - right.toNat
        else strncmp lhs.tail rhs rhs.length := rfl
    rw [List.length_cons, round]
    by_cases differ : lhs.headD 0 = right
    · have more : ¬ (lhs.headD 0 ≠ right ∨ lhs.headD 0 = 0) := by
        rw [differ]
        exact fun stop => stop.elim (absurd rfl) nonzero
      rw [if_neg more, tails]
      constructor
      · intro equal index less
        cases index with
        | zero => exact first.symm.trans differ
        | succ index =>
          rw [← later]
          exact equal index (by omega)
      · intro equal index less
        rw [later]
        exact equal (index + 1) (by omega)
    · rw [if_pos (.inl differ)]
      have apart : (lhs.headD 0).toNat ≠ right.toNat := fun same =>
        differ (UInt8.toNat_inj.mp same)
      refine iff_of_false (by omega) fun equal => ?_
      exact differ (first.trans (equal 0 (by omega)))

/-- The test of the child loop holds exactly when the name is the component. -/
theorem namedAs_iff {node : VNode} {comp : List UInt8} (plain : ∀ byte ∈ comp, byte ≠ 0) :
    namedAs node comp = true ↔ node.fullName = comp := by
  unfold namedAs VNode.fullName
  rw [Bool.and_eq_true, decide_eq_true_eq, decide_eq_true_eq, strncmp_eq_zero_iff plain]
  constructor
  · rintro ⟨length, equal⟩
    apply List.ext_getElem
    · simp [length]
    · intro index less bound
      have here := equal index bound
      rw [List.getD_eq_getElem _ _ bound] at here
      simpa using here
  · rintro rfl
    refine ⟨by simp, fun index less => ?_⟩
    rw [List.getD_eq_getElem _ _ less]
    simp

/-! ## One component -/

/-- A finite tree without nodes on disk: its nodes, and the children of each of them. -/
structure FiniteTree (nodes : Address → VNode) (members : Finset Address)
    (childrenOf : Address → List Address) : Prop where
  /-- The root is one of the nodes. -/
  root : rootVNode ∈ members
  /-- The children of a node are linked one to the next. -/
  children : ∀ node ∈ members,
    Segment (fun child => (nodes child).next) (nodes node).firstChild (childrenOf node) none
  /-- The children are nodes. -/
  inside : ∀ node ∈ members, ∀ child ∈ childrenOf node, child ∈ members
  /-- The siblings, the parent and the target of a link are nodes. -/
  aside : ∀ node ∈ members, ∀ target, (nodes node).PointsAside target → target ∈ members
  /-- No node has its children on disk. -/
  plain : ∀ node ∈ members, hasFlag (nodes node).flags vfsOnDisk = false

section Fold

variable (nodes : Address → VNode) (childrenOf : Address → List Address)

/-- The node that one component leads to. -/
def stepTarget (current : Address) (comp : List UInt8) : Pointer :=
  if comp = wordDotDot ∨ comp = wordParent then
    if current = rootVNode then some current else (nodes current).parent
  else if comp = wordDot ∨ comp = wordSelf then some current
  else if comp = wordNext then (nodes current).next
  else if comp = wordPrevious then (nodes current).previous
  else if comp = wordFirst then (nodes current).firstChild
  else if comp = wordLast then (childrenOf current).getLast?
  else (childrenOf current).find? fun child => (nodes child).fullName = comp

/-- The node that components lead to, one after the other. -/
def foldTarget (current : Address) (comps : List (List UInt8)) : Pointer :=
  comps.foldlM (stepTarget nodes childrenOf) current

/-- The link step behind the last component. -/
def linkStep (node : Address) : Pointer :=
  if hasFlag (nodes node).flags vfsLink then (nodes node).link else some node

/-- What the fold returns: the target of the last link step, or the panic. -/
def foldFind (start : Address) (comps : List (List UInt8)) : Except Stop Pointer :=
  match foldTarget nodes childrenOf start comps with
  | none => .error (.panic .notFound)
  | some node => .ok (linkStep nodes node)

/-- Wherever the words `..` and `~parent` stand among components, the node has a parent or is the
root. -/
def ParentsThere (start : Address) (comps : List (List UInt8)) : Prop :=
  ∀ front comp back node, comps = front ++ comp :: back →
    foldTarget nodes childrenOf start front = some node →
    comp = wordDotDot ∨ comp = wordParent → stepTarget nodes childrenOf node comp ≠ none

end Fold

section Step

variable {nodes : Address → VNode} {members : Finset Address}
  {childrenOf : Address → List Address} {fuel : Nat} {current : Address}

/-- The child loop finds the first child with a name. -/
theorem findChild_eq {comp : List UInt8} (plain : ∀ byte ∈ comp, byte ≠ 0) {start : Pointer}
    {children : List Address}
    (segment : Segment (fun child => (nodes child).next) start children none)
    (enough : children.length < fuel) :
    findChild nodes comp fuel start =
      .ok (children.find? fun child => (nodes child).fullName = comp) := by
  induction children generalizing start fuel with
  | nil =>
    obtain ⟨less, rfl⟩ : ∃ less, fuel = less + 1 := ⟨fuel - 1, by simp at enough; omega⟩
    obtain rfl : start = none := segment
    rfl
  | cons child children ih =>
    simp only [List.length_cons] at enough
    obtain ⟨less, rfl⟩ : ∃ less, fuel = less + 1 := ⟨fuel - 1, by omega⟩
    obtain ⟨rfl, tail⟩ := segment
    rw [findChild, List.find?_cons]
    by_cases named : (nodes child).fullName = comp
    · rw [if_pos ((namedAs_iff plain).mpr named)]
      simp [named]
    · rw [if_neg fun same => named ((namedAs_iff plain).mp same), ih tail (by omega)]
      simp [named]

/-- The loop of `~last` ends at the last child. -/
theorem lastSibling_eq {first : Address} {children : List Address}
    (segment : Segment (fun child => (nodes child).next) (some first) children none)
    (enough : children.length ≤ fuel) :
    ∃ last, children.getLast? = some last ∧ lastSibling nodes fuel first = .ok last := by
  induction children generalizing first fuel with
  | nil => cases segment
  | cons child children ih =>
    simp only [List.length_cons] at enough
    obtain ⟨less, rfl⟩ : ∃ less, fuel = less + 1 := ⟨fuel - 1, by omega⟩
    obtain ⟨same, tail⟩ := segment
    obtain rfl := Option.some.inj same
    dsimp only at tail
    rw [lastSibling]
    cases next : (nodes first).next with
    | none =>
      rw [next] at tail
      obtain rfl : children = [] := tail.unique rfl
      exact ⟨first, rfl, rfl⟩
    | some following =>
      rw [next] at tail
      obtain ⟨last, there, found⟩ := @ih less following tail (by omega)
      refine ⟨last, ?_, found⟩
      rw [List.getLast?_cons, there]
      rfl

namespace FiniteTree

/-- A tree has no more children of one node than nodes. -/
theorem length_le (tree : FiniteTree nodes members childrenOf) (member : current ∈ members) :
    (childrenOf current).length ≤ members.card := by
  have distinct := (tree.children current member).nodup
  rw [← List.toFinset_card_of_nodup distinct]
  apply Finset.card_le_card
  intro child listed
  exact tree.inside current member child (List.mem_toFinset.mp listed)

/-- The first child is one of the children. -/
theorem firstChild_inside (tree : FiniteTree nodes members childrenOf) (member : current ∈ members)
    {child : Address} (first : (nodes current).firstChild = some child) : child ∈ members := by
  have start := (tree.children current member).start_eq
  rw [first, Option.or_none] at start
  exact tree.inside current member child (List.mem_of_head? start.symm)

/-- One component leads to its target; the words for the parent may lead to null. -/
theorem step_eq (tree : FiniteTree nodes members childrenOf) (member : current ∈ members)
    {comp : List UInt8} (plain : ∀ byte ∈ comp, byte ≠ 0)
    (parent : comp = wordDotDot ∨ comp = wordParent →
        stepTarget nodes childrenOf current comp ≠ none)
    (enough : members.card < fuel) :
    stepComponent nodes fuel current comp =
      match stepTarget nodes childrenOf current comp with
      | none => .error (.panic .notFound)
      | some target => .ok (some target) := by
  have size := tree.length_le member
  have children := tree.children current member
  have orFound : ∀ pointer : Pointer, orNotFound pointer = match pointer with
      | none => .error (.panic .notFound)
      | some target => .ok (some target) := by
    intro pointer
    cases pointer <;> rfl
  simp only [stepComponent_words, tree.plain current member, ne_eq, ite_not, Bool.false_eq_true,
    if_false]
  unfold stepTarget at parent ⊢
  split_ifs at parent ⊢ with up root stay next previous first last
  · rfl
  · cases above : (nodes current).parent with
    | none => exact absurd above (parent up)
    | some target => simp
  · rfl
  · exact orFound _
  · exact orFound _
  · exact orFound _
  · cases start : (nodes current).firstChild with
    | none =>
      have none : childrenOf current = [] := by
        rw [start] at children
        exact children.unique rfl
      rw [none]
      rfl
    | some child =>
      rw [start] at children
      obtain ⟨last, there, found⟩ :=
        lastSibling_eq children (Nat.le_of_lt (Nat.lt_of_le_of_lt size enough))
      simp [there, found, Except.map]
  · rw [findChild_eq plain children (Nat.lt_of_le_of_lt size enough)]
    exact orFound _

/-- A component leads from a node of the tree to a node of the tree. -/
theorem step_inside (tree : FiniteTree nodes members childrenOf) (member : current ∈ members)
    {comp : List UInt8} {target : Address}
    (found : stepTarget nodes childrenOf current comp = some target) : target ∈ members := by
  unfold stepTarget at found
  split at found
  · split at found
    · cases found
      exact member
    · exact tree.aside current member target (.inr (.inr (.inl found)))
  split at found
  · cases found
    exact member
  split at found
  · exact tree.aside current member target (.inl found)
  split at found
  · exact tree.aside current member target (.inr (.inl found))
  split at found
  · exact tree.firstChild_inside member found
  split at found
  · exact tree.inside current member target (List.mem_of_getLast? found)
  · exact tree.inside current member target (List.mem_of_find?_eq_some found)

end FiniteTree

end Step

/-! ## The fold -/

section Walk

variable {nodes : Address → VNode} {members : Finset Address}
  {childrenOf : Address → List Address} {fuel : Nat} {current : Address}

/-- The first component of a fold and those behind it. -/
theorem foldTarget_cons (comp : List UInt8) (comps : List (List UInt8)) :
    foldTarget nodes childrenOf current (comp :: comps) =
      (stepTarget nodes childrenOf current comp).bind fun next =>
        foldTarget nodes childrenOf next comps := by
  unfold foldTarget
  rw [List.foldlM_cons]
  rfl

/-- A fold has no result exactly when one of its steps has no target. -/
theorem foldTarget_none_iff {comps : List (List UInt8)} :
    foldTarget nodes childrenOf current comps = none ↔
      ∃ front comp back node, comps = front ++ comp :: back ∧
        foldTarget nodes childrenOf current front = some node ∧
        stepTarget nodes childrenOf node comp = none := by
  induction comps generalizing current with
  | nil => simp [foldTarget]
  | cons comp comps ih =>
    rw [foldTarget_cons]
    cases stepped : stepTarget nodes childrenOf current comp with
    | none =>
      refine iff_of_true rfl ⟨[], comp, comps, current, rfl, rfl, stepped⟩
    | some next =>
      rw [Option.bind_some, ih]
      constructor
      · rintro ⟨front, later, back, node, rfl, reached, stops⟩
        refine ⟨comp :: front, later, back, node, rfl, ?_, stops⟩
        rw [foldTarget_cons, stepped]
        exact reached
      · rintro ⟨front, later, back, node, split, reached, stops⟩
        cases front with
        | nil =>
          obtain ⟨rfl, rfl⟩ := List.cons.inj split
          obtain rfl := Option.some.inj reached
          rw [stepped] at stops
          cases stops
        | cons first front =>
          obtain ⟨rfl, rfl⟩ := List.cons.inj split
          rw [foldTarget_cons, stepped] at reached
          exact ⟨front, later, back, node, rfl, reached, stops⟩

/-- Parents along components are parents along those behind the first. -/
theorem ParentsThere.tail {comp : List UInt8} {comps : List (List UInt8)} {next : Address}
    (parents : ParentsThere nodes childrenOf current (comp :: comps))
    (stepped : stepTarget nodes childrenOf current comp = some next) :
    ParentsThere nodes childrenOf next comps := by
  intro front later back node split reached
  apply parents (comp :: front) later back node
  · rw [split]
    rfl
  · rw [foldTarget_cons, stepped]
    exact reached

/-- A component is made of bytes of the path. -/
theorem mem_of_mem_component {byte : UInt8} {path : List UInt8} (member : byte ∈ component path) :
    byte ∈ path :=
  (List.takeWhile_sublist _).mem (List.mem_of_mem_take member)

/-- The walk over a path is the fold over its components. -/
theorem FiniteTree.walk_eq (tree : FiniteTree nodes members childrenOf)
    (member : current ∈ members) {path : List UInt8} (plain : ∀ byte ∈ path, byte ≠ 0)
    (parents : ParentsThere nodes childrenOf current (components path))
    (enough : members.card < fuel) :
    walk nodes fuel (some current) path =
      match foldTarget nodes childrenOf current (components path) with
      | none => .error (.panic .notFound)
      | some node => .ok (some node) := by
  induction length : path.length using Nat.strongRecOn generalizing current path with
  | ind count ih =>
    subst length
    cases path with
    | nil =>
      rw [walk_nil]
      rfl
    | cons byte rest =>
      by_cases same : byte = slash
      · subst same
        rw [components_slash] at parents ⊢
        rw [walk_slash]
        apply ih _ _ member _ parents rfl
        · simp
        · exact fun later inside => plain later (List.mem_cons_of_mem _ inside)
      · rw [components_cons _ same] at parents ⊢
        have stepped := @FiniteTree.step_eq _ _ _ _ _ tree member (component (byte :: rest))
          (fun later inside => plain later (mem_of_mem_component inside))
          (parents [] _ _ current rfl rfl) enough
        rw [walk_component _ _ same, stepped, foldTarget_cons]
        cases target : stepTarget nodes childrenOf current (component (byte :: rest)) with
        | none => rfl
        | some next =>
          have positive := component_length_pos rest same
          simp only [Except.bind, Option.bind_some]
          apply ih _ _ (tree.step_inside member target) _ (parents.tail target) rfl
          · simp only [List.length_drop, List.length_cons]
            omega
          · exact fun later inside => plain later (List.mem_of_mem_drop inside)

/-- **Path resolution is a fold.** In a finite tree without nodes on disk `RelativeFind` of a path
string is the left fold of one step per component, with components cut at 127 bytes, and one link
step; it panics with `PANIC_NOT_FOUND` exactly when a step has no target. This leaves aside paths
that ask for the parent of a node, other than the root, that has none. -/
theorem relativeFind_fold (tree : FiniteTree nodes members childrenOf) {base : Address}
    (member : base ∈ members) {path : List UInt8} (plain : ∀ byte ∈ path, byte ≠ 0)
    (parents : ParentsThere nodes childrenOf (walkStart base path)
      ((path.splitOn slash).flatMap pieces))
    (enough : members.card < fuel) :
    relativeFind nodes fuel (some base) path =
        foldFind nodes childrenOf (walkStart base path) ((path.splitOn slash).flatMap pieces) ∧
      (relativeFind nodes fuel (some base) path = .error (.panic .notFound) ↔
        ∃ front comp back node, (path.splitOn slash).flatMap pieces = front ++ comp :: back ∧
          foldTarget nodes childrenOf (walkStart base path) front = some node ∧
          stepTarget nodes childrenOf node comp = none) := by
  have start : walkStart base path ∈ members := by
    unfold walkStart
    split
    · exact tree.root
    · exact member
  rw [← components_eq] at parents ⊢
  have found : relativeFind nodes fuel (some base) path =
      foldFind nodes childrenOf (walkStart base path) (components path) := by
    rw [relativeFind_eq, tree.walk_eq start plain parents enough]
    unfold foldFind
    cases foldTarget nodes childrenOf (walkStart base path) (components path) with
    | none => rfl
    | some node =>
      simp only [Except.bind, followLink, linkStep]
      split <;> rfl
  refine ⟨found, ?_⟩
  rw [found, ← foldTarget_none_iff]
  unfold foldFind
  cases foldTarget nodes childrenOf (walkStart base path) (components path) <;> simp

end Walk

/-- A root with one child of a name. -/
def namedChild (name : List UInt8) : Address → VNode
  | 0 => { VNode.zero with firstChild := some 1 }
  | 1 => { VNode.zero with name := ⟨name, name.length⟩, parent := some 0 }
  | _ => VNode.zero

/-- The children in that tree. -/
def namedChildren : Address → List Address
  | 0 => [1]
  | _ => []

/-- The root and its child are a finite tree. -/
theorem namedChild_tree (name : List UInt8) :
    FiniteTree (namedChild name) {0, 1} namedChildren := by
  have cases : ∀ {good : Address → Prop}, good 0 → good 1 →
      ∀ node ∈ ({0, 1} : Finset Address), good node := by
    intro good root child node member
    rcases Finset.mem_insert.mp member with rfl | single
    · exact root
    · obtain rfl := Finset.mem_singleton.mp single
      exact child
  constructor
  · exact Finset.mem_insert_self _ _
  · exact cases ⟨rfl, rfl⟩ rfl
  · exact cases (by decide) (by decide)
  · apply cases
    · rintro target (points | points | points | points) <;> cases points
    · rintro target (points | points | points | points) <;> cases points
      decide
  · apply cases
    · simp [namedChild, VNode.zero, hasFlag]
    · simp [namedChild, VNode.zero, hasFlag]

/-- The path of the child resolves as the fold says. -/
theorem relativeFind_fold_child :
    relativeFind (namedChild (cString ['a'])) 3 (some 0) (cString ['/', 'a']) =
      foldFind (namedChild (cString ['a'])) namedChildren 0
        (((cString ['/', 'a']).splitOn slash).flatMap pieces) := by
  have parents : ParentsThere (namedChild (cString ['a'])) namedChildren 0
      (((cString ['/', 'a']).splitOn slash).flatMap pieces) := by
    intro front comp back node split reached up
    have alone : front = [] ∧ comp = cString ['a'] := by
      have whole : ((cString ['/', 'a']).splitOn slash).flatMap pieces = [cString ['a']] := by
        decide
      rw [whole] at split
      cases front with
      | nil => exact ⟨rfl, (List.cons.inj split).1.symm⟩
      | cons first front => simp at split
    obtain ⟨rfl, rfl⟩ := alone
    exact absurd up (by decide)
  exact (relativeFind_fold (namedChild_tree _) (by decide) (plain_of_all (by decide)) parents
    (by decide)).1

/-- A name of 128 bytes. -/
def longName : List UInt8 := List.replicate 128 'a'.toUInt8

/-- A child with a name of 128 bytes is not found, though the name is the whole path. -/
theorem long_name_missed :
    ¬ ∀ (nodes : Address → VNode) (members : Finset Address)
      (childrenOf : Address → List Address) (fuel : Nat) (base : Address) (path : List UInt8),
      FiniteTree nodes members childrenOf → base ∈ members → (∀ byte ∈ path, byte ≠ 0) →
      members.card < fuel →
      relativeFind nodes fuel (some base) path =
        foldFind nodes childrenOf (walkStart base path) (wordsOf path) := by
  intro claim
  have found := claim _ _ _ 3 0 longName (namedChild_tree longName) (by decide)
    (plain_of_all (by decide +kernel)) (by decide)
  have stopped : relativeFind (namedChild longName) 3 (some 0) longName =
      .error (.panic .notFound) := by decide +kernel
  have folded : foldFind (namedChild longName) namedChildren (walkStart 0 longName)
      (wordsOf longName) = .ok (some 1) := by decide +kernel
  rw [stopped, folded] at found
  cases found

end Unarddeg
