import Unarddeg.Kernel.Sched.Descriptors

/-!
# Where the pointers of the nodes lead

The nodes of the boot and `/proc` point among themselves, but for the first child of `/proc`. The
children of `/proc` point to their siblings only, but for the link of `self`, which is the last
selected process: after an exit it dangles until the next selection.
-/

namespace Unarddeg

open Library

variable {width : Nat} {Registers : Type}

/-- The invariant of the pointers between nodes. -/
structure Pointers (layout : Layout) (state : KernelState width Registers) (procs : List Address) :
    Prop where
  /-- The nodes of the boot and `/proc` point among themselves, but for the first child of
  `/proc`. -/
  staying : ∀ address, address ∈ layout.boot ∨ address = layout.proc → ∀ target,
    (address ≠ layout.proc ∧ (state.node address).firstChild = some target) ∨
      (state.node address).PointsAside target → target ∈ layout.boot ∨ target = layout.proc
  /-- `self` has no child. -/
  selfChild : (state.node layout.self).firstChild = none
  /-- `self` has no parent link. -/
  selfParent : (state.node layout.self).parent = none
  /-- No process is a link. -/
  links : ∀ process ∈ procs, (state.node process).link = none
  /-- Unless a process has left since, `self` links to a process. -/
  selfLink : state.currentProc ≠ none → ∀ target, (state.node layout.self).link = some target →
    target ∈ procs

namespace Pointers

variable {layout : Layout} {before after : KernelState width Registers} {procs : List Address}
  {taskOf : Address → Address} {filesOf : Address → List Address} {process : Address}

/-- The siblings of a child of `/proc` are children of `/proc`. -/
theorem sibling (scheduled : Scheduled layout before procs taskOf) {address target : Address}
    (member : address ∈ procs ++ [layout.self])
    (points : (before.node address).next = some target ∨
      (before.node address).previous = some target) : target ∈ procs ++ [layout.self] := by
  have children := scheduled.children
  have back := scheduled.back
  obtain ⟨front, rest, split⟩ := List.append_of_mem member
  rw [split] at children back ⊢
  rcases points with next | previous
  · have following : (before.node address).next = (rest.head?).or none := children.next_eq
    rw [Option.or_none, next] at following
    have behind : target ∈ rest := List.mem_of_head? following.symm
    simp [behind]
  · have leading : (before.node address).previous = (front.getLast?).or none := back.previous_eq
    rw [Option.or_none, previous] at leading
    have ahead : target ∈ front := List.mem_of_getLast? leading.symm
    simp [ahead]

/-- All pointers of nodes lead to nodes, as long as `self` does not link to a process that left. -/
theorem known (pointers : Pointers layout before procs)
    (scheduled : Scheduled layout before procs taskOf)
    (linked : ∀ target, (before.node layout.self).link = some target → target ∈ procs)
    (address : Address) (isNode : layout.IsNode procs address) (target : Address)
    (points : (before.node address).Points target) : layout.IsNode procs target := by
  have staying : address ∈ layout.boot ∨ address = layout.proc → layout.IsNode procs target := by
    intro stays
    have kept : target ∈ layout.boot ∨ target = layout.proc → layout.IsNode procs target :=
      fun stays => stays.elim .inl fun proc => .inr (.inl proc)
    rcases points with first | aside
    · by_cases proc : address = layout.proc
      · subst proc
        exact Layout.isNode_child (List.mem_of_head? (scheduled.first_iff.mp first.symm))
      · exact kept (pointers.staying address stays target (.inl ⟨proc, first⟩))
    · exact kept (pointers.staying address stays target (.inr aside))
  rcases isNode with boot | proc | rfl | member
  · exact staying (.inl boot)
  · exact staying (.inr proc)
  · rcases points with first | next | previous | parent | link
    · exact absurd (pointers.selfChild.symm.trans first) (by simp)
    · exact Layout.isNode_child (sibling scheduled (by simp) (.inl next))
    · exact Layout.isNode_child (sibling scheduled (by simp) (.inr previous))
    · exact absurd (pointers.selfParent.symm.trans parent) (by simp)
    · exact .inr (.inr (.inr (linked target link)))
  · have node := scheduled.node address member
    rcases points with first | next | previous | parent | link
    · exact absurd (node.firstChild.symm.trans first) (by simp)
    · exact Layout.isNode_child (sibling scheduled (by simp [member]) (.inl next))
    · exact Layout.isNode_child (sibling scheduled (by simp [member]) (.inr previous))
    · exact absurd (node.parent.symm.trans parent) (by simp)
    · exact absurd ((pointers.links address member).symm.trans link) (by simp)

/-! ## What the steps keep -/

/-- A change of marks only keeps the pointers. -/
theorem congr (pointers : Pointers layout before procs)
    (nodes : ∀ address, layout.IsNode procs address →
      ∃ flags, after.node address = { before.node address with flags := flags })
    (current : after.currentProc = before.currentProc) : Pointers layout after procs where
  staying := fun address stays target points => by
    have isNode : layout.IsNode procs address := stays.elim .inl fun proc => .inr (.inl proc)
    obtain ⟨flags, same⟩ := nodes address isNode
    rw [same] at points
    exact pointers.staying address stays target points
  selfChild := by
    obtain ⟨flags, same⟩ := nodes layout.self (.inr (.inr (.inl rfl)))
    rw [same]
    exact pointers.selfChild
  selfParent := by
    obtain ⟨flags, same⟩ := nodes layout.self (.inr (.inr (.inl rfl)))
    rw [same]
    exact pointers.selfParent
  links := fun process member => by
    obtain ⟨flags, same⟩ := nodes process (.inr (.inr (.inr member)))
    rw [same]
    exact pointers.links process member
  selfLink := fun running target => by
    obtain ⟨flags, same⟩ := nodes layout.self (.inr (.inr (.inl rfl)))
    rw [same]
    exact pointers.selfLink (current ▸ running) target

/-- Opening a node keeps the pointers. -/
theorem opening (pointers : Pointers layout before procs)
    (scheduled : Scheduled layout before procs taskOf) {task node entry : Address}
    {entries : List Address} (fresh : entry ∉ before.live) :
    Pointers layout (before.opening task entries node entry) procs := by
  refine pointers.congr (fun address known => ?_) (relinkAt_currentProc ..)
  have other : address ≠ entry := fun same => fresh (same ▸ scheduled.live address known)
  simp only [KernelState.opening, relinkAt_node, withEntry_node before other]
  split_ifs
  · exact ⟨_, rfl⟩
  · exact ⟨_, rfl⟩

/-- Closing an entry keeps the pointers. -/
theorem dropping (pointers : Pointers layout before procs) {task target node : Address}
    {front : List Address} : Pointers layout (before.dropping task front target node) procs := by
  refine pointers.congr (fun address _ => ?_) (relinkAt_currentProc ..)
  simp only [KernelState.dropping, KernelState.setNode, relinkAt_node, Function.update_apply]
  split_ifs with here
  · rw [here]
    exact ⟨_, rfl⟩
  · exact ⟨_, rfl⟩

/-- A selection links `self` to the selected process. -/
theorem select (pointers : Pointers layout before procs)
    (scheduled : Scheduled layout before procs taskOf) (member : process ∈ procs) :
    Pointers layout (before.selecting layout.self process (taskOf process)) procs := by
  have others : ∀ address, address ≠ layout.self →
      (before.selecting layout.self process (taskOf process)).node address =
        before.node address := fun address other => by
    simp [KernelState.selecting, other]
  have self : (before.selecting layout.self process (taskOf process)).node layout.self =
      { before.node layout.self with link := some process } := by
    simp [KernelState.selecting]
  exact {
    staying := fun address stays target points => by
      have other : address ≠ layout.self := by
        rintro rfl
        exact stays.elim scheduled.selfApart.1 scheduled.selfApart.2
      rw [others address other] at points
      exact pointers.staying address stays target points
    selfChild := by
      rw [self]
      exact pointers.selfChild
    selfParent := by
      rw [self]
      exact pointers.selfParent
    links := fun linked inside => by
      rw [others linked (scheduled.ne_self inside)]
      exact pointers.links linked inside
    selfLink := fun _ target points => by
      rw [self] at points
      exact Option.some.inj points ▸ member }

/-- The first child of `/proc` does not stay. -/
theorem first_ne (scheduled : Scheduled layout before procs taskOf) {address : Address}
    (stays : address ∈ layout.boot ∨ address = layout.proc) :
    some address ≠ (before.node layout.proc).firstChild := by
  intro first
  have listed := List.mem_of_head? (scheduled.first_iff.mp first)
  rcases List.mem_append.mp listed with member | self
  · exact stays.elim (scheduled.procsApart address member).1 (scheduled.procsApart address member).2
  · obtain rfl := List.mem_singleton.mp self
    exact stays.elim scheduled.selfApart.1 scheduled.selfApart.2

/-- A creation keeps the pointers. -/
theorem create (pointers : Pointers layout before procs)
    (scheduled : Scheduled layout before procs taskOf) {new data block : Address}
    (initialState : Registers) (fresh : FreshBlocks before.live new data block) :
    Pointers layout (before.creating layout.proc new data block initialState) (new :: procs) := by
  have old : ∀ {address}, layout.IsNode procs address → _ := fun {address} known =>
    creating_node scheduled initialState fresh (scheduled.live address known)
  have self : layout.IsNode procs layout.self := .inr (.inr (.inl rfl))
  exact {
    staying := fun address stays target points => by
      have known : layout.IsNode procs address := stays.elim .inl fun proc => .inr (.inl proc)
      rw [old known, if_neg (first_ne scheduled stays)] at points
      refine pointers.staying address stays target (points.imp (fun ⟨other, first⟩ => ?_) id)
      rw [if_neg other] at first
      exact ⟨other, first⟩
    selfChild := by
      rw [old self]
      simpa [scheduled.selfApart.2] using pointers.selfChild
    selfParent := by
      rw [old self]
      exact pointers.selfParent
    links := fun process member => by
      rcases List.mem_cons.mp member with rfl | listed
      · rw [creating_new scheduled fresh]
        rfl
      · rw [old (.inr (.inr (.inr listed)))]
        exact pointers.links process listed
    selfLink := fun running target points => by
      rw [old self] at points
      exact List.mem_cons_of_mem _ (pointers.selfLink running target points) }

/-- The links to the children of `/proc` are held by their siblings and by `/proc` only. -/
theorem next_ne (scheduled : Scheduled layout before procs taskOf) {address : Address}
    (stays : address ∈ layout.boot ∨ address = layout.proc) {sibling : Address}
    (member : sibling ∈ procs ++ [layout.self]) : sibling ≠ address := by
  rintro rfl
  rcases List.mem_append.mp member with process | self
  · exact stays.elim (scheduled.procsApart sibling process).1
      (scheduled.procsApart sibling process).2
  · obtain rfl := List.mem_singleton.mp self
    exact stays.elim scheduled.selfApart.1 scheduled.selfApart.2

/-- An exit keeps the pointers. -/
theorem exit {front rest : List Address}
    (pointers : Pointers layout before (front ++ process :: rest))
    (scheduled : Scheduled layout before (front ++ process :: rest) taskOf)
    {task : Address} {entries : List Address} :
    Pointers layout (before.exiting layout.proc process task front.getLast? entries)
      (front ++ rest) := by
  set after := before.exiting layout.proc process task front.getLast? entries
  have next : ∀ address, (after.node address).next = _ := exiting_next scheduled entries
  have previous : ∀ address, (after.node address).previous = _ :=
    exiting_previous scheduled entries
  have firstChild : ∀ address, (after.node address).firstChild = _ := exiting_firstChild entries
  have parent : ∀ address, (after.node address).parent = (before.node address).parent :=
    fun address => exiting_field VNode.parent (fun _ => rfl) (fun _ _ => rfl) (fun _ _ => rfl)
      (fun _ _ => rfl) _ _ _ _
  have link : ∀ address, (after.node address).link = (before.node address).link :=
    fun address => exiting_field VNode.link (fun _ => rfl) (fun _ _ => rfl) (fun _ _ => rfl)
      (fun _ _ => rfl) _ _ _ _
  have remaining : ∀ other ∈ front ++ rest, other ∈ front ++ process :: rest := fun _ member =>
    ((mem_remaining scheduled).mp member).1
  exact {
    staying := fun address stays target points => by
      have notProcess : address ≠ process := (next_ne scheduled stays (by simp)).symm
      have notLast : front.getLast? ≠ some address := fun last =>
        next_ne scheduled stays (by simp [List.mem_of_getLast? last]) rfl
      have notNext : (before.node process).next ≠ some address := fun points =>
        next_ne scheduled stays (sibling scheduled (by simp) (.inl points)) rfl
      refine pointers.staying address stays target ?_
      rcases points with ⟨notProc, first⟩ | forward | backward | up | target
      · rw [firstChild, if_neg fun both => notProc both.1] at first
        exact .inl ⟨notProc, first⟩
      · rw [next, if_neg notProcess, if_neg notLast] at forward
        exact .inr (.inl forward)
      · rw [previous, if_neg notProcess, if_neg notNext] at backward
        exact .inr (.inr (.inl backward))
      · exact .inr (.inr (.inr (.inl (parent _ ▸ up))))
      · exact .inr (.inr (.inr (.inr (link _ ▸ target))))
    selfChild := by
      rw [firstChild, if_neg fun both => scheduled.selfApart.2 both.1]
      exact pointers.selfChild
    selfParent := (parent _).trans pointers.selfParent
    links := fun other member => (link _).trans (pointers.links other (remaining other member))
    selfLink := fun running => absurd rfl running }

/-! ## The start -/

/-- When the scheduler starts, `self` links to nothing. -/
theorem start_selfLink {boot : Finset Address} {proc self first data block : Address}
    {zeroState : Registers} (booted : Boot boot before) (procFresh : proc ∉ before.live)
    (selfFresh : self ∉ insert proc before.live)
    (fresh : FreshBlocks (before.withDir proc self).live first data block) :
    (((before.withDir proc self).creating proc first data block zeroState).node self).link =
      none := by
  have live : self ∈ (before.withDir proc self).live := Finset.mem_insert_self _ _
  have kept := creating_node (booted.withDir procFresh selfFresh) zeroState fresh live
  refine (congrArg VNode.link kept).trans ?_
  exact congrArg VNode.link (withDir_self booted procFresh selfFresh)

/-- The pointers of the nodes when the scheduler starts. -/
theorem start {boot : Finset Address} {proc self first data block : Address}
    {zeroState : Registers} (booted : Boot boot before)
    (parents : ∀ address ∈ boot, ∀ target, (before.node address).parent = some target →
      target ∈ boot) (procFresh : proc ∉ before.live) (selfFresh : self ∉ insert proc before.live)
    (fresh : FreshBlocks (before.withDir proc self).live first data block) :
    Pointers ⟨boot, proc, self⟩
      { (before.withDir proc self).creating proc first data block zeroState with
        currentProc := some first } [first] := by
  have dir : Pointers ⟨boot, proc, self⟩
      { before.withDir proc self with proc := some proc, currentProc := none } [] := {
    staying := fun address stays target points => by
      rcases stays with member | rfl
      · dsimp only at points
        rw [withDir_boot booted procFresh selfFresh member] at points
        rcases points with ⟨_, first⟩ | forward | backward | up | target
        · dsimp only at first
          split_ifs at first
          · exact .inr (Option.some.inj first).symm
          · exact .inl (booted.firstChild address member target first)
        · exact .inl (booted.next address member target forward)
        · dsimp only at backward
          split_ifs at backward
          · exact .inr (Option.some.inj backward).symm
          · exact .inl (booted.previous address member target backward)
        · exact .inl (parents address member _ up)
        · exact .inl (booted.link address member _ target)
      · dsimp only at points
        rw [withDir_proc booted procFresh selfFresh] at points
        rcases points with ⟨notProc, _⟩ | forward | backward | up | link
        · exact absurd rfl notProc
        · exact .inl (booted.firstChild _ booted.root target forward)
        · cases backward
        · cases up
        · cases link
    selfChild := by
      dsimp only
      rw [withDir_self booted procFresh selfFresh]
      rfl
    selfParent := by
      dsimp only
      rw [withDir_self booted procFresh selfFresh]
      rfl
    links := by simp
    selfLink := fun running => absurd rfl running }
  have made := dir.create (booted.withDir procFresh selfFresh) zeroState fresh
  exact {
    staying := made.staying
    selfChild := made.selfChild
    selfParent := made.selfParent
    links := made.links
    selfLink := fun _ target points => by
      rw [show _ = none from start_selfLink booted procFresh selfFresh fresh] at points
      cases points }

end Pointers

end Unarddeg
