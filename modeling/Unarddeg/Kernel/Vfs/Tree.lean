import Unarddeg.Kernel.Vfs.RelativeFind

/-!
# Trees built by registration

The trees that `RegisterChildVNode` builds from the root, one new node at a time. Registration
sets the sibling and child links and leaves `Parent` null, so the word `..` leads from every
registered node to a null node. The walk over a path never comes back to the root once it has
left it; that decides where `path/name/..` ends.
-/

namespace Unarddeg

variable {width : Nat} {Registers : Type}

/-- What a driver assigns to a new node before it registers it. -/
def dress (name : VNodeString) (readFunction writeFunction : RWFunction) (driverData : Pointer)
    (node : VNode) : VNode :=
  { node with name, readFunction, writeFunction, driverData }

/-- A node of the tree: the root or a registered child. -/
def InTree (edges : List (Address × Address)) (address : Address) : Prop :=
  address = rootVNode ∨ ∃ parent, (parent, address) ∈ edges

/-- The states that registrations of new nodes under the root reach, with the parent and the child
of each registration. -/
inductive Grown : KernelState width Registers → List (Address × Address) → Prop
  /-- The root alone, as `VFSCreateDevices` initialises it. -/
  | root {state : KernelState width Registers} (name : VNodeString)
      (live : rootVNode ∈ state.live)
      (initialised : state.node rootVNode = { vNodeDefault width VNode.zero with name }) :
      Grown state []
  /-- One more node, registered under a node of the tree. -/
  | child {before made after : KernelState width Registers} {edges : List (Address × Address)}
      {parent child : Address} (allocator : Allocator) (flags : VNodeFlags) (name : VNodeString)
      (readFunction writeFunction : RWFunction) (driverData : Pointer)
      (grown : Grown before edges) (member : InTree edges parent)
      (created : newVNode allocator flags before = .ok child made)
      (registered : registerChildVNode (some parent) (some child)
        (made.setNode child
          (dress name readFunction writeFunction driverData (made.node child))) = .ok () after) :
      Grown after ((parent, child) :: edges)

/-- A pointer to a node of the tree other than the root, or null. -/
def PointsInto (edges : List (Address × Address)) (pointer : Pointer) : Prop :=
  ∀ address, pointer = some address → ∃ parent, (parent, address) ∈ edges

/-- What registration keeps about every node of a tree. -/
structure TreeNode (edges : List (Address × Address)) (node : VNode) : Prop where
  /-- No node has a parent. -/
  parent : node.parent = none
  /-- No node is linked. -/
  link : node.link = none
  /-- The first child is a registered node. -/
  firstChild : PointsInto edges node.firstChild
  /-- The next sibling is a registered node. -/
  next : PointsInto edges node.next
  /-- The previous sibling is a registered node. -/
  previous : PointsInto edges node.previous

/-- What registration keeps about a tree. -/
structure TreeState (state : KernelState width Registers) (edges : List (Address × Address)) :
    Prop where
  /-- The nodes of the tree are handed out. -/
  live : ∀ address, InTree edges address → address ∈ state.live
  /-- The links of the nodes stay in the tree. -/
  nodes : ∀ address, InTree edges address → TreeNode edges (state.node address)
  /-- A registered node is not the root. -/
  proper : ∀ parent child, (parent, child) ∈ edges → child ≠ rootVNode
  /-- The root has no sibling and is no link. -/
  root : (state.node rootVNode).flags = 0

theorem PointsInto.none (edges : List (Address × Address)) : PointsInto edges none := by
  simp [PointsInto]

/-- Pointers into a tree point into a larger tree. -/
theorem PointsInto.cons {edges : List (Address × Address)} {pointer : Pointer}
    (edge : Address × Address) (points : PointsInto edges pointer) :
    PointsInto (edge :: edges) pointer := by
  intro address here
  obtain ⟨parent, member⟩ := points address here
  exact ⟨parent, List.mem_cons_of_mem _ member⟩

/-- With a new edge its child is in the tree. -/
theorem inTree_cons {edges : List (Address × Address)} {parent child address : Address} :
    InTree ((parent, child) :: edges) address ↔ address = child ∨ InTree edges address := by
  unfold InTree
  simp only [List.mem_cons, Prod.mk.injEq]
  constructor
  · rintro (root | ⟨above, ⟨_, rfl⟩ | old⟩)
    · exact .inr (.inl root)
    · exact .inl rfl
    · exact .inr (.inr ⟨above, old⟩)
  · rintro (rfl | root | ⟨above, old⟩)
    · exact .inr ⟨parent, .inl ⟨rfl, rfl⟩⟩
    · exact .inl root
    · exact .inr ⟨above, .inr old⟩

/-- One registration keeps the tree. -/
theorem TreeState.register {before made after : KernelState width Registers}
    {edges : List (Address × Address)} {allocator : Allocator} {flags : VNodeFlags}
    {parent child : Address} {name : VNodeString} {readFunction writeFunction : RWFunction}
    {driverData : Pointer} (tree : TreeState before edges) (member : InTree edges parent)
    (created : newVNode allocator flags before = .ok child made)
    (registered : registerChildVNode (some parent) (some child)
      (made.setNode child
        (dress name readFunction writeFunction driverData (made.node child))) = .ok () after) :
    TreeState after ((parent, child) :: edges) := by
  obtain ⟨fresh, rfl⟩ := newVNode_ok created
  obtain rfl := registerChildVNode_ok registered
  have apart : ∀ address, InTree edges address → address ≠ child := fun address inside same =>
    fresh (same ▸ tree.live address inside)
  have rootApart : rootVNode ≠ child := apart _ (.inl rfl)
  have self : PointsInto ((parent, child) :: edges) (some child) := by
    rintro _ ⟨rfl⟩
    exact ⟨parent, List.mem_cons_self⟩
  have shared : PointsInto ((parent, child) :: edges) (before.node parent).firstChild :=
    (tree.nodes parent member).firstChild.cons _
  constructor
  · intro address inside
    rcases inTree_cons.mp inside with rfl | old
    · exact Finset.mem_insert_self _ _
    · exact Finset.mem_insert_of_mem (tree.live address old)
  · intro address inside
    have above := apart parent member
    simp only [KernelState.setNode, KernelState.allocated, Function.update_idem,
      Function.update_self]
    rcases inTree_cons.mp inside with rfl | old
    · constructor
      · simp [attach, dress, freshNode, vNodeDefault]
      · simp [attach, dress, freshNode, vNodeDefault]
      · simpa [attach, dress, freshNode, vNodeDefault, above.symm] using PointsInto.none _
      · simpa [attach, Function.update_of_ne above] using shared
      · simp only [attach, Function.update_of_ne above, Function.update_self]
        split_ifs
        · exact self
        · exact PointsInto.none _
    · have kept := tree.nodes address old
      simp only [attach, Function.update_of_ne above, Function.update_of_ne (apart address old),
        if_neg (apart address old)]
      constructor
      · exact kept.parent
      · exact kept.link
      · dsimp only
        split_ifs
        · exact self
        · exact kept.firstChild.cons _
      · exact kept.next.cons _
      · dsimp only
        split_ifs
        · exact self
        · exact kept.previous.cons _
  · intro above below edge
    rcases List.mem_cons.mp edge with same | old
    · cases same
      exact rootApart.symm
    · exact tree.proper _ _ old
  · simp [attach, KernelState.setNode, KernelState.allocated, Function.update_of_ne rootApart,
      tree.root]

/-- Every state that registrations reach is a tree. -/
theorem Grown.tree {state : KernelState width Registers} {edges : List (Address × Address)}
    (grown : Grown state edges) : TreeState state edges := by
  induction grown with
  | root name live initialised =>
    constructor
    · rintro address (rfl | ⟨_, edge⟩)
      · exact live
      · simp at edge
    · rintro address (rfl | ⟨_, edge⟩)
      · rw [initialised]
        exact ⟨rfl, rfl, PointsInto.none _, PointsInto.none _, PointsInto.none _⟩
      · simp at edge
    · simp
    · rw [initialised]
      rfl
  | child _ _ _ _ _ _ _ member created registered ih => exact ih.register member created registered

/-! ## The walk in a tree -/

/-- A component that leads from the root to the root. -/
def StaysAtRoot (comp : List UInt8) : Prop :=
  comp = wordDotDot ∨ comp = wordParent ∨ comp = wordDot ∨ comp = wordSelf

section Walk

variable {state : KernelState width Registers} {edges : List (Address × Address)} {fuel : Nat}

/-- A registered node is in the tree. -/
theorem InTree.ofEdge {parent child : Address} (edge : (parent, child) ∈ edges) :
    InTree edges child := .inr ⟨parent, edge⟩

/-- The four words keep the walk at the root. -/
theorem stepComponent_root {nodes : Address → VNode} {comp : List UInt8}
    (stays : StaysAtRoot comp) :
    stepComponent nodes fuel rootVNode comp = .ok (some rootVNode) := by
  rcases stays with rfl | rfl | rfl | rfl <;> rfl

/-- The child loop finds a registered node or none. -/
theorem findChild_into (tree : TreeState state edges) {comp : List UInt8} {start found : Pointer}
    (points : PointsInto edges start)
    (returned : findChild state.node comp fuel start = .ok found) :
    PointsInto edges found := by
  induction fuel generalizing start with
  | zero => simp [findChild] at returned
  | succ fuel ih =>
    cases start with
    | none =>
      simp only [findChild, Except.ok.injEq] at returned
      exact returned ▸ points
    | some child =>
      obtain ⟨parent, edge⟩ := points child rfl
      simp only [findChild] at returned
      split at returned
      · cases returned
        exact points
      · exact ih (tree.nodes child (.ofEdge edge)).next returned

/-- The last sibling of a registered node is a registered node. -/
theorem lastSibling_into (tree : TreeState state edges) {start last : Address}
    (points : PointsInto edges (some start))
    (returned : lastSibling state.node fuel start = .ok last) : PointsInto edges (some last) := by
  induction fuel generalizing start with
  | zero => simp [lastSibling] at returned
  | succ fuel ih =>
    obtain ⟨parent, edge⟩ := points start rfl
    have forward := (tree.nodes start (.ofEdge edge)).next
    simp only [lastSibling] at returned
    split at returned
    · cases returned
      exact points
    · rename_i next here
      exact ih (here ▸ forward) returned

/-- A link that is not null is returned as it is. -/
theorem orNotFound_ok {pointer found : Pointer} :
    orNotFound pointer = .ok found ↔ pointer = found ∧ found ≠ none := by
  cases pointer with
  | none => cases found <;> simp [orNotFound]
  | some address => cases found <;> simp [orNotFound]

/-- A component leads to a registered node, or from the root to the root by one of the four
words. -/
theorem stepComponent_into (tree : TreeState state edges) {comp : List UInt8}
    {current next : Address} (inside : InTree edges current)
    (stepped : stepComponent state.node fuel current comp = .ok (some next)) :
    (∃ parent, (parent, next) ∈ edges) ∨
      (current = rootVNode ∧ next = rootVNode ∧ StaysAtRoot comp) := by
  have node := tree.nodes current inside
  have here : StaysAtRoot comp → current = next → (∃ parent, (parent, next) ∈ edges) ∨
      (current = rootVNode ∧ next = rootVNode ∧ StaysAtRoot comp) := by
    rintro stays rfl
    rcases inside with root | edge
    · exact .inr ⟨root, root, stays⟩
    · exact .inl edge
  simp only [stepComponent, Bool.or_eq_true,
    isWord_iff (plain_of_all (show wordDotDot.all (· != 0) = true from rfl)),
    isWord_iff (plain_of_all (show wordParent.all (· != 0) = true from rfl)),
    isWord_iff (plain_of_all (show wordDot.all (· != 0) = true from rfl)),
    isWord_iff (plain_of_all (show wordSelf.all (· != 0) = true from rfl))] at stepped
  split at stepped
  · rename_i up
    split at stepped
    · simp [node.parent] at stepped
    · exact here (by unfold StaysAtRoot; tauto) (by simpa using stepped)
  split at stepped
  · rename_i stay
    exact here (by unfold StaysAtRoot; tauto) (by simpa using stepped)
  left
  split at stepped
  · exact node.next next (orNotFound_ok.mp stepped).1
  split at stepped
  · exact node.previous next (orNotFound_ok.mp stepped).1
  split at stepped
  · exact node.firstChild next (orNotFound_ok.mp stepped).1
  split at stepped
  · split at stepped
    · simp at stepped
    · rename_i first start
      cases last : lastSibling state.node fuel first with
      | error reason => simp [last, Except.map] at stepped
      | ok address =>
        simp only [last, Except.map, Except.ok.injEq] at stepped
        exact lastSibling_into tree (start ▸ node.firstChild) last next stepped
  split at stepped
  · simp at stepped
  · cases found : findChild state.node comp fuel (state.node current).firstChild with
    | error reason => simp [found, Except.bind] at stepped
    | ok child =>
      simp only [found, Except.bind] at stepped
      exact findChild_into tree node.firstChild found next (orNotFound_ok.mp stepped).1

/-- A walk ends in the tree, and at the root only if every component kept it there. -/
theorem walk_into (tree : TreeState state edges) {current next : Address} {path : List UInt8}
    (inside : InTree edges current)
    (walked : walk state.node fuel (some current) path = .ok (some next)) :
    InTree edges next ∧ (next = rootVNode → current = rootVNode ∧
      ∀ comp ∈ components path, StaysAtRoot comp) := by
  induction length : path.length using Nat.strongRecOn generalizing current path with
  | ind count ih =>
    cases path with
    | nil =>
      simp only [walk_nil, Except.ok.injEq, Option.some.injEq] at walked
      subst walked
      exact ⟨inside, fun root => ⟨root, by simp [components, componentsIn]⟩⟩
    | cons byte rest =>
      subst length
      by_cases same : byte = slash
      · subst same
        rw [walk_slash] at walked
        rw [components_slash]
        exact ih _ (by simp) inside walked rfl
      · rw [walk_component _ _ same] at walked
        rw [components_cons _ same]
        have positive := component_length_pos rest same
        cases stepped : stepComponent state.node fuel current (component (byte :: rest)) with
        | error reason => simp [stepped, Except.bind] at walked
        | ok middle =>
          simp only [stepped, Except.bind] at walked
          cases middle with
          | none =>
            cases remaining : (byte :: rest).drop (component (byte :: rest)).length with
            | nil => simp [remaining] at walked
            | cons later tail => simp [remaining, walk_none] at walked
          | some middle =>
            have reached := stepComponent_into tree inside stepped
            have passed : InTree edges middle := by
              rcases reached with edge | ⟨_, root, _⟩
              · exact .inr edge
              · exact .inl root
            obtain ⟨ends, back⟩ := ih _ (by simp only [List.length_drop, List.length_cons]; omega)
              passed walked rfl
            refine ⟨ends, fun root => ?_⟩
            obtain ⟨rfl, stay⟩ := back root
            rcases reached with ⟨parent, edge⟩ | ⟨start, _, first⟩
            · exact absurd rfl (tree.proper parent _ edge)
            · refine ⟨start, fun comp member => ?_⟩
              rcases List.mem_cons.mp member with rfl | later
              · exact first
              · exact stay comp later

/-- A path of the four words leads from the root to the root. -/
theorem walk_root {nodes : Address → VNode} {path : List UInt8}
    (stay : ∀ comp ∈ components path, StaysAtRoot comp) :
    walk nodes fuel (some rootVNode) path = .ok (some rootVNode) := by
  induction length : path.length using Nat.strongRecOn generalizing path with
  | ind count ih =>
    cases path with
    | nil => simp
    | cons byte rest =>
      subst length
      by_cases same : byte = slash
      · subst same
        rw [components_slash] at stay
        rw [walk_slash]
        exact ih _ (by simp) stay rfl
      · rw [components_cons _ same] at stay
        have positive := component_length_pos rest same
        rw [walk_component _ _ same, stepComponent_root (stay _ List.mem_cons_self)]
        exact ih _ (by simp only [List.length_drop, List.length_cons]; omega)
          (fun comp member => stay comp (List.mem_cons_of_mem _ member)) rfl

end Walk

/-! ## Resolution in a tree -/

/-- A path resolves to a node, for some bound on the sibling loops. -/
def Resolves (nodes : Address → VNode) (base : Address) (path : List UInt8) (node : Address) :
    Prop :=
  ∃ fuel, relativeFind nodes fuel (some base) path = .ok (some node)

section Resolve

variable {state : KernelState width Registers} {edges : List (Address × Address)}

/-- A walk starts in the tree. -/
theorem walkStart_inTree {base : Address} (inside : InTree edges base) (path : List UInt8) :
    InTree edges (walkStart base path) := by
  unfold walkStart
  split
  · exact .inl rfl
  · exact inside

/-- In a tree a path resolves to the node its walk ends at. -/
theorem relativeFind_ok (tree : TreeState state edges) {fuel : Nat} {base node : Address}
    {path : List UInt8} (inside : InTree edges base)
    (found : relativeFind state.node fuel (some base) path = .ok (some node)) :
    walk state.node fuel (some (walkStart base path)) path = .ok (some node) := by
  rw [relativeFind_eq] at found
  cases walked : walk state.node fuel (some (walkStart base path)) path with
  | error reason => simp [walked, Except.bind] at found
  | ok last =>
    cases last with
    | none => simp [walked, Except.bind, followLink] at found
    | some last =>
      have ends := (walk_into tree (walkStart_inTree inside path) walked).1
      simp only [walked, Except.bind, followLink, (tree.nodes last ends).link] at found
      split at found
      · simp at found
      · exact found

/-- The root is not a link. -/
theorem followLink_root (tree : TreeState state edges) :
    followLink state.node (some rootVNode) = .ok (some rootVNode) := by
  simp [followLink, tree.root, hasFlag]

/-- `..` leads from a registered node to a null node. -/
theorem stepComponent_up (tree : TreeState state edges) {fuel : Nat} {parent child : Address}
    (edge : (parent, child) ∈ edges) {word : List UInt8}
    (up : word = wordDotDot ∨ word = wordParent) :
    stepComponent state.node fuel child word = .ok none := by
  have other := tree.proper _ _ edge
  have orphan := (tree.nodes child (.ofEdge edge)).parent
  have test : (isWord word wordDotDot || isWord word wordParent) = true := by
    rcases up with rfl | rfl <;> rfl
  rw [stepComponent, if_pos test, if_pos other, orphan]

/-- Finding the parent of a registered node follows a null pointer. -/
theorem relativeFind_up (tree : TreeState state edges) {parent child : Address}
    (edge : (parent, child) ∈ edges) {word : List UInt8}
    (up : word = wordDotDot ∨ word = wordParent) (fuel : Nat) :
    relativeFind state.node fuel (some child) word = .error .nullAccess := by
  have start : walkStart child word = child := by
    rcases up with rfl | rfl <;> exact if_neg (by decide)
  have whole : component word = word := by
    rcases up with rfl | rfl <;> decide
  have nonempty : word ≠ [] := by
    rcases up with rfl | rfl <;> decide
  rw [relativeFind_eq, start, walk_single child whole nonempty, stepComponent_up tree edge up]
  rfl

/-- `path/name/..` in bytes. -/
def throughChild (path name : List UInt8) : List UInt8 :=
  path ++ slash :: (name ++ slash :: wordDotDot)

/-- A walk over `path/name/..` that ends at a node is a walk over `path/name` that ends at the
root. -/
theorem walk_throughChild (tree : TreeState state edges) {fuel : Nat} {start node : Address}
    {path name : List UInt8} (inside : InTree edges start)
    (walked : walk state.node fuel (some start) (throughChild path name) = .ok (some node)) :
    node = rootVNode ∧
      walk state.node fuel (some start) (path ++ slash :: name) = .ok (some rootVNode) := by
  have regroup : throughChild path name = (path ++ slash :: name) ++ slash :: wordDotDot := by
    simp [throughChild]
  rw [regroup, walk_append] at walked
  cases front : walk state.node fuel (some start) (path ++ slash :: name) with
  | error reason => simp [front, Except.bind] at walked
  | ok last =>
    cases last with
    | none => simp [front, Except.bind, walk_none] at walked
    | some last =>
      simp only [front, Except.bind, walk_slash] at walked
      rw [walk_single last (by decide) (by decide)] at walked
      obtain root | ⟨parent, edge⟩ := (walk_into tree inside front).1
      · subst root
        rw [stepComponent_root (.inl rfl)] at walked
        simp only [Except.ok.injEq, Option.some.injEq] at walked
        exact ⟨walked.symm, rfl⟩
      · rw [stepComponent_up tree edge (.inl rfl)] at walked
        simp at walked

/-- `path/name/..` resolves to the directory of `path` exactly when that is the root and every
component of the name keeps a walk there. -/
theorem resolves_throughChild_iff (tree : TreeState state edges) {base directory : Address}
    {path name : List UInt8} (inside : InTree edges base)
    (resolved : Resolves state.node base path directory) :
    Resolves state.node base (throughChild path name) directory ↔
      directory = rootVNode ∧ ∀ comp ∈ components name, StaysAtRoot comp := by
  constructor
  · rintro ⟨fuel, found⟩
    have walked := relativeFind_ok tree inside found
    obtain ⟨root, front⟩ := walk_throughChild tree (walkStart_inTree inside _) walked
    refine ⟨root, ?_⟩
    rw [walk_append] at front
    cases middle : walk state.node fuel (some (walkStart base (throughChild path name))) path with
    | error reason => simp [middle, Except.bind] at front
    | ok last =>
      cases last with
      | none => simp [middle, Except.bind, walk_none] at front
      | some last =>
        simp only [middle, Except.bind, walk_slash] at front
        have reached := (walk_into tree (walkStart_inTree inside _) middle).1
        exact ((walk_into tree reached front).2 rfl).2
  · rintro ⟨rfl, stay⟩
    obtain ⟨fuel, found⟩ := resolved
    refine ⟨fuel, ?_⟩
    have walked := relativeFind_ok tree inside found
    -- The longer path starts where the path starts, unless that is empty: then at the root.
    have same : walk state.node fuel (some (walkStart base (throughChild path name))) path =
        .ok (some rootVNode) := by
      cases path with
      | nil => rfl
      | cons byte rest => exact walked
    rw [relativeFind_eq, throughChild, walk_append, ← throughChild, same]
    simp only [Except.bind, walk_slash]
    rw [walk_append, walk_root stay]
    simp only [Except.bind, walk_slash]
    rw [walk_single _ (by decide) (by decide), stepComponent_root (.inl rfl)]
    exact followLink_root tree

end Resolve

/-- `..` and `~parent` lead from no registered node to its parent, in any tree that registrations
build: the link that they follow is null. A path through a child and back resolves to its
directory only at the root, through a name that never leaves it. -/
theorem parent_never_found {state : KernelState width Registers}
    {edges : List (Address × Address)} (grown : Grown state edges) :
    (∀ parent child, (parent, child) ∈ edges →
      ∀ word, word = wordDotDot ∨ word = wordParent →
        ¬ Resolves state.node child word parent ∧
          ∀ fuel, relativeFind state.node fuel (some child) word = .error .nullAccess) ∧
    (∀ base path directory name, InTree edges base → Resolves state.node base path directory →
      (Resolves state.node base (throughChild path name) directory ↔
        directory = rootVNode ∧ ∀ comp ∈ components name, StaysAtRoot comp)) := by
  have tree := grown.tree
  constructor
  · intro parent child edge word up
    have stopped := relativeFind_up tree edge up
    refine ⟨?_, stopped⟩
    rintro ⟨fuel, found⟩
    simp [stopped fuel] at found
  · intro base path directory name inside resolved
    exact resolves_throughChild_iff tree inside resolved

/-- The name of the one child below. -/
def oneChildName : VNodeString := ⟨cString ['d', 'e', 'v'], 3⟩

/-- The root after one registration under it. -/
def oneChild : Kernel (KernelState 32 Unit) Unit := do
  let child ← newVNode .next vfsSystem
  writeNode (some child) (dress oneChildName .default .default none)
  registerChildVNode (some rootVNode) (some child)

/-- The state that the one registration reaches. -/
def oneChildState : KernelState 32 Unit :=
  match oneChild (.bareRoot 32 ()) with
  | .ok _ after => after
  | .error _ after => after

/-- One registration grows a tree with one edge. -/
theorem oneChild_grown : Grown oneChildState [(rootVNode, 1)] :=
  have bare : Grown (.bareRoot 32 () : KernelState 32 Unit) [] :=
     .root (vNodeDefault 32 VNode.zero).name (by decide) rfl
  .child .next vfsSystem oneChildName .default .default none bare (.inl rfl) rfl rfl

/-- The registered node of that tree has no parent to find. -/
theorem parent_never_found_oneChild :
    ¬ Resolves oneChildState.node 1 wordDotDot rootVNode ∧
      (Resolves oneChildState.node rootVNode (throughChild wordDot wordDot) rootVNode ↔
        rootVNode = rootVNode ∧ ∀ comp ∈ components wordDot, StaysAtRoot comp) :=
  have found := parent_never_found oneChild_grown
  ⟨(found.1 rootVNode 1 (by decide) wordDotDot (.inl rfl)).1,
    found.2 rootVNode wordDot rootVNode wordDot (.inl rfl) ⟨1, rfl⟩⟩

/-- Registration under the root alone loses the parent. -/
theorem oneChild_parent_lost :
    ¬ ∀ (state : KernelState 32 Unit) (edges : List (Address × Address)), Grown state edges →
      ∀ parent child, (parent, child) ∈ edges →
        Resolves state.node child wordDotDot parent := by
  intro claim
  obtain ⟨fuel, found⟩ := claim oneChildState [(rootVNode, 1)] oneChild_grown rootVNode 1
      (by decide)
  have stopped := relativeFind_up oneChild_grown.tree (List.mem_singleton_self _) (.inl rfl) fuel
  simp [found] at stopped

end Unarddeg
