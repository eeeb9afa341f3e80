import Unarddeg.Kernel.Vfs.RelativeFind

/-!
# Paths behind paths

Resolving `front/rest` against resolving `front` and then `rest`. The components are taken one by
one in both cases, but a link is followed only behind the last component of a call: in the middle
of a path the walk goes on from the link itself. An empty front part makes the joined path
absolute.
-/

namespace Unarddeg

/-- `front/rest` in bytes. -/
def joined (front rest : List UInt8) : List UInt8 := front ++ slash :: rest

/-- A path that does not begin at the root. -/
def IsRelative (path : List UInt8) : Prop := path.head? ≠ some slash

instance decidableIsRelative (path : List UInt8) : Decidable (IsRelative path) :=
  inferInstanceAs (Decidable (path.head? ≠ some slash))

/-- The components of a path lead from a base to a node, before any link is followed. -/
def LeadsTo (nodes : Address → VNode) (fuel : Nat) (base : Address) (path : List UInt8)
    (node : Address) : Prop :=
  walk nodes fuel (some (walkStart base path)) path = .ok (some node)

/-- The walk over `front/rest` stands at a node where the components of `rest` begin. -/
def ContinuesAt (nodes : Address → VNode) (fuel : Nat) (base : Address) (front rest : List UInt8)
    (node : Address) : Prop :=
  walk nodes fuel (some (walkStart base (joined front rest))) front = .ok (some node)

/-- The link step leaves the end of a path where it is: the path has a component or separator,
and the node its components lead to is no link to another one. An empty path qualifies when its
base is the root, or a link to the root. -/
def EndsInPlace (nodes : Address → VNode) (fuel : Nat) (base : Address) (path : List UInt8) :
    Prop :=
  if path = [] then followLink nodes (some base) = .ok (some rootVNode)
  else ∀ node, LeadsTo nodes fuel base path node → followLink nodes (some node) = .ok (some node)

section Composed

variable {nodes : Address → VNode} {fuel : Nat} {base middle : Address} {front rest : List UInt8}

/-- A relative path is resolved by a walk from its base. -/
theorem relativeFind_relative (relative : IsRelative rest) :
    relativeFind nodes fuel (some middle) rest =
      (walk nodes fuel (some middle) rest).bind (followLink nodes) := by
  rw [relativeFind_eq, walkStart, if_neg relative]

/-- A path that resolves leads to a node, from which the link step is taken. -/
theorem exists_leadsTo {found : Pointer}
    (resolved : relativeFind nodes fuel (some base) front = .ok found) :
    ∃ node, LeadsTo nodes fuel base front node ∧ followLink nodes (some node) = .ok found := by
  rw [relativeFind_eq] at resolved
  unfold LeadsTo
  cases walked : walk nodes fuel (some (walkStart base front)) front with
  | error reason => simp [walked, Except.bind] at resolved
  | ok last =>
    cases last with
    | none => simp [walked, Except.bind, followLink] at resolved
    | some node =>
      rw [walked] at resolved
      exact ⟨node, rfl, resolved⟩

/-- With a front part the joined path starts where the front part does. -/
theorem walkStart_joined (nonempty : front ≠ []) :
    walkStart base (joined front rest) = walkStart base front := by
  cases front with
  | nil => exact absurd rfl nonempty
  | cons byte front => rfl

/-- Without a front part the joined path starts at the root. -/
theorem walkStart_joined_nil : walkStart base (joined [] rest) = rootVNode := rfl

/-- The rest of a joined path is resolved from the node at which the walk continues. -/
theorem relativeFind_joined {node : Address} (relative : IsRelative rest)
    (continues : ContinuesAt nodes fuel base front rest node) :
    relativeFind nodes fuel (some base) (joined front rest) =
      relativeFind nodes fuel (some node) rest := by
  unfold ContinuesAt at continues
  rw [relativeFind_eq, relativeFind_relative relative]
  rw [show joined front rest = front ++ slash :: rest from rfl, walk_append,
    ← show joined front rest = front ++ slash :: rest from rfl, continues]
  simp only [Except.bind, walk_slash]

/-- The walk over a joined path continues at some node when the front part resolves. -/
theorem exists_continuesAt {found : Pointer}
    (resolved : relativeFind nodes fuel (some base) front = .ok found) :
    ∃ node, ContinuesAt nodes fuel base front rest node := by
  by_cases empty : front = []
  · subst empty
    exact ⟨rootVNode, walk_nil _⟩
  · obtain ⟨node, leads, _⟩ := exists_leadsTo resolved
    refine ⟨node, ?_⟩
    unfold ContinuesAt
    rw [walkStart_joined empty]
    exact leads

/-- The walk over a joined path continues at the node that the front part resolves to exactly when
the front part ends in place. -/
theorem continuesAt_iff (resolved : relativeFind nodes fuel (some base) front = .ok (some middle)) :
    ContinuesAt nodes fuel base front rest middle ↔ EndsInPlace nodes fuel base front := by
  obtain ⟨node, leads, followed⟩ := exists_leadsTo resolved
  unfold ContinuesAt EndsInPlace
  by_cases empty : front = []
  · subst empty
    have start : node = base := by
      unfold LeadsTo at leads
      rw [walk_nil] at leads
      exact (Option.some.inj (Except.ok.inj leads)).symm
    subst start
    rw [if_pos rfl, walkStart_joined_nil, walk_nil, followed]
    simp [eq_comm]
  · rw [if_neg empty, walkStart_joined empty]
    unfold LeadsTo at leads ⊢
    rw [leads]
    constructor
    · intro same other otherLeads
      obtain rfl := Option.some.inj (Except.ok.inj otherLeads)
      rw [followed]
      exact same.symm
    · intro stays
      have stayed := stays node rfl
      rw [followed] at stayed
      exact stayed.symm

end Composed

/-- A tree with a directory `d`, a file `x` in it, and a link `l` to the directory. -/
def linkedTree : Address → VNode
  | 0 => { VNode.zero with firstChild := some 1 }
  | 1 => { VNode.zero with
            name := ⟨cString ['l'], 1⟩, next := some 2, link := some 2, flags := vfsLink }
  | 2 => { VNode.zero with
            name := ⟨cString ['d'], 1⟩, previous := some 1, parent := some 0, firstChild := some 3 }
  | 3 => { VNode.zero with name := ⟨cString ['x'], 1⟩, parent := some 2 }
  | _ => VNode.zero

end Unarddeg
