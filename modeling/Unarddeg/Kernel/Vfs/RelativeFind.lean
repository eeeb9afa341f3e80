import Unarddeg.Kernel.Vfs.VNode

/-!
# Path resolution

`DefaultRelativeFindFunction` of `kernel/vfs/vnode.c`. It reads the node tree and writes nothing
but a scratch buffer, so it is a function of the nodes. A path is the list of its bytes. The
loops over sibling lists take a bound on the nodes visited; a longer list does not end within it.
-/

namespace Unarddeg

/-- The byte between components. -/
def slash : UInt8 := '/'.toUInt8

/-- The longest component the buffer holds: `sizeof(TempBuffer) - 1`. -/
def componentLimit : Nat := 127

/-- The bytes copied to `TempBuffer` from the rest of a path. -/
def component (rest : List UInt8) : List UInt8 :=
  (rest.takeWhile (· ≠ slash)).take componentLimit

/-- The component `..`. -/
def wordDotDot : List UInt8 := cString ['.', '.']
/-- The component `~parent`. -/
def wordParent : List UInt8 := cString ['~', 'p', 'a', 'r', 'e', 'n', 't']
/-- The component `.`. -/
def wordDot : List UInt8 := cString ['.']
/-- The component `~self`. -/
def wordSelf : List UInt8 := cString ['~', 's', 'e', 'l', 'f']
/-- The component `~next`. -/
def wordNext : List UInt8 := cString ['~', 'n', 'e', 'x', 't']
/-- The component `~previous`. -/
def wordPrevious : List UInt8 := cString ['~', 'p', 'r', 'e', 'v', 'i', 'o', 'u', 's']
/-- The component `~first`. -/
def wordFirst : List UInt8 := cString ['~', 'f', 'i', 'r', 's', 't']
/-- The component `~last`. -/
def wordLast : List UInt8 := cString ['~', 'l', 'a', 's', 't']

/-- `TempLength == n && !strncmp(TempBuffer, word, n)`. -/
def isWord (comp word : List UInt8) : Bool :=
  comp.length = word.length && strncmp comp word word.length = 0

/-- The test of the child loop: `TempLength == Child->Name.Length` and equal bytes. -/
def namedAs (node : VNode) (comp : List UInt8) : Bool :=
  comp.length = node.name.length && strncmp node.name.name comp comp.length = 0

section Find

variable (nodes : Address → VNode)

/-- The child loop: the first of the remaining siblings with a name, or null. -/
def findChild (comp : List UInt8) : (fuel : Nat) → Pointer → Except Stop Pointer
  | 0, _ => .error .hang
  | _ + 1, none => .ok none
  | fuel + 1, some child =>
    if namedAs (nodes child) comp then .ok (some child)
    else findChild comp fuel (nodes child).next

/-- The loop of `~last`: the last of a node's following siblings. -/
def lastSibling : (fuel : Nat) → Address → Except Stop Address
  | 0, _ => .error .hang
  | fuel + 1, child =>
    match (nodes child).next with
    | none => .ok child
    | some next => lastSibling fuel next

/-- A link that must not be null. -/
def orNotFound : Pointer → Except Stop Pointer
  | none => .error (.panic .notFound)
  | some address => .ok (some address)

/-- One component of a path, from a node that is not null. -/
def stepComponent (fuel : Nat) (current : Address) (comp : List UInt8) : Except Stop Pointer :=
  if isWord comp wordDotDot || isWord comp wordParent then
    if current ≠ rootVNode then .ok (nodes current).parent else .ok (some current)
  else if isWord comp wordDot || isWord comp wordSelf then
    .ok (some current)
  else if isWord comp wordNext then
    orNotFound (nodes current).next
  else if isWord comp wordPrevious then
    orNotFound (nodes current).previous
  else if isWord comp wordFirst then
    orNotFound (nodes current).firstChild
  else if isWord comp wordLast then
    match (nodes current).firstChild with
    | none => .error (.panic .notFound)
    | some first => (lastSibling nodes fuel first).map some
  else if hasFlag (nodes current).flags vfsOnDisk then
    -- `ConstructChildren` is `DefaultConstructChildrenFunction` on every node.
    .error (.panic .unintendedCall)
  else
    (findChild nodes comp fuel (nodes current).firstChild).bind orNotFound

/-- The main loop over the rest of a path; every round consumes at least one byte. -/
def walkPath (fuel : Nat) : (rounds : Nat) → Pointer → List UInt8 → Except Stop Pointer
  | _, current, [] => .ok current
  | 0, _, _ :: _ => .error .hang
  | _ + 1, none, _ :: _ => .error (.panic .nullPointerDereference)
  | rounds + 1, some current, byte :: rest =>
    if byte = slash then
      walkPath fuel rounds (some current) rest
    else
      let comp := component (byte :: rest)
      (stepComponent nodes fuel current comp).bind fun next =>
        walkPath fuel rounds next ((byte :: rest).drop comp.length)

/-- The end of the function: a link node is followed once. -/
def followLink : Pointer → Except Stop Pointer
  | none => .error .nullAccess
  | some address =>
    if hasFlag (nodes address).flags vfsLink then .ok (nodes address).link else .ok (some address)

/-- `DefaultRelativeFindFunction`, the function behind every `RelativeFind`. -/
def relativeFind (fuel : Nat) (base : Pointer) (path : List UInt8) : Except Stop Pointer :=
  if base = none then
    .error (.panic .nullPointerDereference)
  else if path.head? = some slash then
    (walkPath nodes fuel path.length (some rootVNode) path.tail).bind (followLink nodes)
  else
    (walkPath nodes fuel path.length base path).bind (followLink nodes)

/-- The walk over a whole path. -/
def walk (fuel : Nat) (current : Pointer) (path : List UInt8) : Except Stop Pointer :=
  walkPath nodes fuel path.length current path

end Find

/-- The components of a path, as the main loop takes them. -/
def componentsIn : (rounds : Nat) → List UInt8 → List (List UInt8)
  | _, [] => []
  | 0, _ :: _ => []
  | rounds + 1, byte :: rest =>
    if byte = slash then componentsIn rounds rest
    else component (byte :: rest) ::
      componentsIn rounds ((byte :: rest).drop (component (byte :: rest)).length)

/-- The components of a path. -/
def components (path : List UInt8) : List (List UInt8) := componentsIn path.length path

/-! ## Components -/

/-- A component that starts at a byte other than the separator is not empty. -/
theorem component_length_pos {byte : UInt8} (rest : List UInt8) (other : byte ≠ slash) :
    0 < (component (byte :: rest)).length := by
  simp [component, other, componentLimit]

/-- A component ends before the next separator. -/
theorem component_append (front rest : List UInt8) :
    component (front ++ slash :: rest) = component front := by
  have same : (front ++ slash :: rest).takeWhile (· ≠ slash) = front.takeWhile (· ≠ slash) := by
    induction front with
    | nil => simp
    | cons byte front ih =>
      simp only [List.cons_append, List.takeWhile_cons]
      rw [ih]
  rw [component, component, same]

/-- A component is not longer than the rest of the path. -/
theorem component_length_le (rest : List UInt8) : (component rest).length ≤ rest.length :=
  Nat.le_trans (List.length_take_le' ..) (List.takeWhile_sublist _).length_le

/-- A word whose bytes all pass the test for the end has no zero byte. -/
theorem plain_of_all {word : List UInt8} (all : word.all (· != 0) = true) :
    ∀ byte ∈ word, byte ≠ 0 := by
  simpa using all

/-- The word test holds of the word only. -/
theorem isWord_iff {comp word : List UInt8} (plain : ∀ byte ∈ word, byte ≠ 0) :
    isWord comp word = true ↔ comp = word := by
  simp only [isWord, Bool.and_eq_true, decide_eq_true_eq]
  constructor
  · rintro ⟨length, equal⟩
    exact (strncmp_eq_zero length plain).mp equal
  · rintro rfl
    exact ⟨rfl, (strncmp_eq_zero rfl plain).mpr rfl⟩

section Walk

variable {nodes : Address → VNode} {fuel : Nat}

/-- The step with its words. -/
theorem stepComponent_words {current : Address} {comp : List UInt8} :
    stepComponent nodes fuel current comp =
      if comp = wordDotDot ∨ comp = wordParent then
        if current ≠ rootVNode then .ok (nodes current).parent else .ok (some current)
      else if comp = wordDot ∨ comp = wordSelf then .ok (some current)
      else if comp = wordNext then orNotFound (nodes current).next
      else if comp = wordPrevious then orNotFound (nodes current).previous
      else if comp = wordFirst then orNotFound (nodes current).firstChild
      else if comp = wordLast then
        match (nodes current).firstChild with
        | none => .error (.panic .notFound)
        | some first => (lastSibling nodes fuel first).map some
      else if hasFlag (nodes current).flags vfsOnDisk then .error (.panic .unintendedCall)
      else (findChild nodes comp fuel (nodes current).firstChild).bind orNotFound := by
  simp only [stepComponent, Bool.or_eq_true,
    isWord_iff (plain_of_all (show wordDotDot.all (· != 0) = true from rfl)),
    isWord_iff (plain_of_all (show wordParent.all (· != 0) = true from rfl)),
    isWord_iff (plain_of_all (show wordDot.all (· != 0) = true from rfl)),
    isWord_iff (plain_of_all (show wordSelf.all (· != 0) = true from rfl)),
    isWord_iff (plain_of_all (show wordNext.all (· != 0) = true from rfl)),
    isWord_iff (plain_of_all (show wordPrevious.all (· != 0) = true from rfl)),
    isWord_iff (plain_of_all (show wordFirst.all (· != 0) = true from rfl)),
    isWord_iff (plain_of_all (show wordLast.all (· != 0) = true from rfl))]

/-- A name that is none of the words is searched among the children. -/
theorem stepComponent_child {current : Address} {comp : List UInt8}
    (name : comp ∉ [wordDotDot, wordParent, wordDot, wordSelf, wordNext, wordPrevious, wordFirst,
      wordLast])
    (loaded : hasFlag (nodes current).flags vfsOnDisk = false) :
    stepComponent nodes fuel current comp =
      (findChild nodes comp fuel (nodes current).firstChild).bind orNotFound := by
  simp only [List.mem_cons, List.not_mem_nil, or_false, not_or] at name
  simp only [stepComponent_words, name, loaded, or_self, if_false, Bool.false_eq_true]

/-- More rounds than bytes change nothing. -/
theorem walkPath_rounds (rounds : Nat) (current : Pointer) (path : List UInt8)
    (enough : path.length ≤ rounds) :
    walkPath nodes fuel rounds current path = walk nodes fuel current path := by
  unfold walk
  induction rounds using Nat.strongRecOn generalizing current path with
  | ind rounds ih =>
    cases path with
    | nil => simp [walkPath]
    | cons byte rest =>
      obtain ⟨less, rfl⟩ : ∃ less, rounds = less + 1 :=
        ⟨rounds - 1, by simp only [List.length_cons] at enough; omega⟩
      simp only [List.length_cons, Nat.add_le_add_iff_right] at enough ⊢
      cases current with
      | none => rfl
      | some current =>
        simp only [walkPath]
        split
        · rw [ih less (by omega) _ _ enough]
        · rename_i other
          congr 1
          funext next
          have shorter : ((byte :: rest).drop (component (byte :: rest)).length).length ≤
              rest.length := by
            have := component_length_pos rest other
            simp only [List.length_drop, List.length_cons]
            omega
          rw [ih less (by omega) _ _ (by omega)]
          by_cases same : rest.length = less
          · rw [same, ih less (by omega) _ _ (by omega)]
          · rw [ih rest.length (by omega) _ _ shorter]

/-- The walk over the empty path stays. -/
@[simp] theorem walk_nil (current : Pointer) : walk nodes fuel current [] = .ok current := by
  cases current <;> rfl

/-- A null node on the way panics. -/
theorem walk_none (byte : UInt8) (rest : List UInt8) :
    walk nodes fuel none (byte :: rest) = .error (.panic .nullPointerDereference) := rfl

/-- A separator is skipped. -/
theorem walk_slash (current : Address) (rest : List UInt8) :
    walk nodes fuel (some current) (slash :: rest) = walk nodes fuel (some current) rest := by
  rw [walk, List.length_cons, walkPath, if_pos rfl]
  rfl

/-- A component is one step, and the walk goes on behind it. -/
theorem walk_component (current : Address) {byte : UInt8} (rest : List UInt8)
    (other : byte ≠ slash) :
    walk nodes fuel (some current) (byte :: rest) =
      (stepComponent nodes fuel current (component (byte :: rest))).bind fun next =>
        walk nodes fuel next ((byte :: rest).drop (component (byte :: rest)).length) := by
  rw [walk, List.length_cons, walkPath, if_neg other]
  dsimp only
  congr 1
  funext next
  apply walkPath_rounds
  have := component_length_pos rest other
  simp only [List.length_drop, List.length_cons]
  omega

/-- The walk over a path of one component is its step. -/
theorem walk_single (current : Address) {word : List UInt8} (whole : component word = word)
    (nonempty : word ≠ []) :
    walk nodes fuel (some current) word = stepComponent nodes fuel current word := by
  cases word with
  | nil => exact absurd rfl nonempty
  | cons byte rest =>
    have other : byte ≠ slash := by
      rintro rfl
      simp [component] at whole
    rw [walk_component _ _ other, whole, List.drop_length]
    cases stepComponent nodes fuel current (byte :: rest) <;> simp [Except.bind]

/-- The walk over a path and what follows its next separator is one walk after the other. -/
theorem walk_append (current : Pointer) (front rest : List UInt8) :
    walk nodes fuel current (front ++ slash :: rest) =
      (walk nodes fuel current front).bind fun next => walk nodes fuel next (slash :: rest) := by
  induction length : front.length using Nat.strongRecOn generalizing current front with
  | ind count ih =>
    cases front with
    | nil => simp [Except.bind]
    | cons byte front =>
      subst length
      cases current with
      | none => simp [walk_none, Except.bind]
      | some current =>
        rw [List.cons_append]
        by_cases same : byte = slash
        · subst same
          rw [walk_slash, walk_slash, ih _ (by simp) _ _ rfl]
        · have taken : component (byte :: (front ++ slash :: rest)) = component (byte :: front) :=
            component_append (byte :: front) rest
          rw [walk_component _ _ same, walk_component _ _ same, taken]
          cases stepped : stepComponent nodes fuel current (component (byte :: front)) with
          | error reason => rfl
          | ok next =>
            have positive := component_length_pos front same
            have bound := component_length_le (byte :: front)
            simp only [Except.bind]
            rw [← List.cons_append, List.drop_append_of_le_length bound,
              ih _ (by simp only [List.length_drop, List.length_cons]; omega) _ _ rfl]
            rfl

end Walk

/-- Where the walk over a path starts. -/
def walkStart (base : Address) (path : List UInt8) : Address :=
  if path.head? = some slash then rootVNode else base

/-- The function is one walk and one link step. -/
theorem relativeFind_eq (nodes : Address → VNode) (fuel : Nat) (base : Address)
    (path : List UInt8) :
    relativeFind nodes fuel (some base) path =
      (walk nodes fuel (some (walkStart base path)) path).bind (followLink nodes) := by
  rw [relativeFind, if_neg (Option.some_ne_none _)]
  cases path with
  | nil => rfl
  | cons byte rest =>
    simp only [walkStart, List.head?_cons, Option.some.injEq]
    split
    · rename_i same
      subst same
      rw [walk_slash, List.tail_cons, walkPath_rounds _ _ _ (by simp)]
    · rfl

section Components

/-- The components behind a separator. -/
theorem componentsIn_rounds (rounds : Nat) (path : List UInt8) (enough : path.length ≤ rounds) :
    componentsIn rounds path = components path := by
  unfold components
  induction rounds using Nat.strongRecOn generalizing path with
  | ind rounds ih =>
    cases path with
    | nil => simp [componentsIn]
    | cons byte rest =>
      obtain ⟨less, rfl⟩ : ∃ less, rounds = less + 1 :=
        ⟨rounds - 1, by simp only [List.length_cons] at enough; omega⟩
      simp only [List.length_cons, Nat.add_le_add_iff_right] at enough ⊢
      simp only [componentsIn]
      split
      · rw [ih less (by omega) _ enough]
      · rename_i other
        congr 1
        have shorter : ((byte :: rest).drop (component (byte :: rest)).length).length ≤
            rest.length := by
          have := component_length_pos rest other
          simp only [List.length_drop, List.length_cons]
          omega
        rw [ih less (by omega) _ (by omega)]
        by_cases same : rest.length = less
        · rw [same, ih less (by omega) _ (by omega)]
        · rw [ih rest.length (by omega) _ shorter]

/-- Separators add no component. -/
theorem components_slash (rest : List UInt8) : components (slash :: rest) = components rest := by
  rw [components, List.length_cons, componentsIn, if_pos rfl]
  rfl

/-- The first component and those behind it. -/
theorem components_cons {byte : UInt8} (rest : List UInt8) (other : byte ≠ slash) :
    components (byte :: rest) = component (byte :: rest) ::
      components ((byte :: rest).drop (component (byte :: rest)).length) := by
  rw [components, List.length_cons, componentsIn, if_neg other]
  congr 1
  apply componentsIn_rounds
  have := component_length_pos rest other
  simp only [List.length_drop, List.length_cons]
  omega

end Components

/-! ## Where a path leads -/

/-- A node holds a pointer to another one that is not its first child. -/
def VNode.PointsAside (node : VNode) (target : Address) : Prop :=
  node.next = some target ∨ node.previous = some target ∨ node.parent = some target ∨
    node.link = some target

/-- A node holds a pointer to another one. -/
def VNode.Points (node : VNode) (target : Address) : Prop :=
  node.firstChild = some target ∨ node.PointsAside target

section Closed

variable {nodes : Address → VNode} {fuel : Nat} {known : Address → Prop} {target : Address}
  (closed : ∀ address, known address → ∀ target, (nodes address).Points target → known target)

include closed

/-- The child loop stays among nodes that contain their siblings. -/
theorem findChild_known {comp : List UInt8} {start : Pointer}
    (begins : ∀ address, start = some address → known address)
    (found : findChild nodes comp fuel start = .ok (some target)) : known target := by
  induction fuel generalizing start with
  | zero => cases found
  | succ fuel ih =>
    cases start with
    | none => cases found
    | some child =>
      have here := begins child rfl
      simp only [findChild] at found
      split at found
      · cases found
        exact here
      · exact ih (fun next same => closed child here next (.inr (.inl same))) found

/-- The loop of `~last` stays among nodes that contain their siblings. -/
theorem lastSibling_known {start : Address} (begins : known start)
    (found : lastSibling nodes fuel start = .ok target) : known target := by
  induction fuel generalizing start with
  | zero => cases found
  | succ fuel ih =>
    simp only [lastSibling] at found
    split at found
    · cases found
      exact begins
    · rename_i next same
      exact ih (closed start begins next (.inr (.inl same))) found

/-- A component leads from known nodes to known nodes. -/
theorem stepComponent_known {current : Address} (here : known current) {comp : List UInt8}
    (found : stepComponent nodes fuel current comp = .ok (some target)) :
    known target := by
  have points := closed current here target
  have followed : ∀ {pointer : Pointer}, orNotFound pointer = .ok (some target) →
      pointer = some target := by
    intro pointer same
    cases pointer <;> cases same
    rfl
  simp only [stepComponent] at found
  split_ifs at found with up root stay next previous first last onDisk
  · exact points (.inr (.inr (.inr (.inl (Except.ok.inj found)))))
  · cases found
    exact here
  · cases found
    exact here
  · exact points (.inr (.inl (followed found)))
  · exact points (.inr (.inr (.inl (followed found))))
  · exact points (.inl (followed found))
  · split at found
    · cases found
    · rename_i child begins
      cases reached : lastSibling nodes fuel child with
      | error reason =>
        rw [reached] at found
        cases found
      | ok reached =>
        rw [reached] at found
        cases found
        exact lastSibling_known closed (closed current here child (.inl begins)) reached
  · cases searched : findChild nodes comp fuel (nodes current).firstChild with
    | error reason =>
      rw [searched] at found
      cases found
    | ok child =>
      rw [searched] at found
      obtain rfl := followed found
      exact findChild_known closed (fun first same => closed current here first (.inl same))
        searched

/-- A walk leads from known nodes to known nodes. -/
theorem walkPath_known {rounds : Nat} {current : Pointer} {path : List UInt8}
    (begins : ∀ address, current = some address → known address)
    (found : walkPath nodes fuel rounds current path = .ok (some target)) : known target := by
  induction rounds generalizing current path with
  | zero =>
    cases path with
    | nil =>
      simp only [walkPath, Except.ok.injEq] at found
      exact begins target found
    | cons byte rest => simp [walkPath] at found
  | succ rounds ih =>
    cases path with
    | nil =>
      simp only [walkPath, Except.ok.injEq] at found
      exact begins target found
    | cons byte rest =>
      cases current with
      | none => cases found
      | some current =>
        simp only [walkPath] at found
        split at found
        · exact ih begins found
        · cases stepped : stepComponent nodes fuel current (component (byte :: rest)) with
          | error reason =>
            rw [stepped] at found
            cases found
          | ok next =>
            rw [stepped] at found
            refine ih (fun address same => ?_) found
            subst same
            exact stepComponent_known closed (begins current rfl) stepped

/-- A path leads from known nodes to known nodes. -/
theorem relativeFind_known (root : known rootVNode) {base : Pointer} {path : List UInt8}
    (begins : ∀ address, base = some address → known address)
    (found : relativeFind nodes fuel base path = .ok (some target)) : known target := by
  cases base with
  | none => cases found
  | some base =>
    have start : ∀ address, some (walkStart base path) = some address → known address := by
      rintro _ ⟨⟩
      unfold walkStart
      split
      · exact root
      · exact begins base rfl
    rw [relativeFind_eq] at found
    cases walked : walk nodes fuel (some (walkStart base path)) path with
    | error reason =>
      rw [walked] at found
      cases found
    | ok reached =>
      rw [walked] at found
      cases reached with
      | none => cases found
      | some reached =>
        have here := walkPath_known closed start walked
        simp only [Except.bind, followLink] at found
        split at found
        · exact closed reached here target (.inr (.inr (.inr (.inr (Except.ok.inj found)))))
        · cases found
          exact here

end Closed

end Unarddeg
