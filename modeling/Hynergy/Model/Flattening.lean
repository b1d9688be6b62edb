import Hynergy.Lib.Returns
import Hynergy.Model.UnionFind

/-!
# Partitions of flattened definitions

The partitions that the builder derives are the classes of nodes connected in the flattened element
graph. They are numbered in the order in which they occur.
-/

namespace Hynergy

open Lib Relation

variable {F : Type}

/-- Nodes of a definition that its flattened elements connect: a primitive joins the terminals of one
of its partitions, and an element joins its terminals where the inside of its definition does. -/
inductive Flat (registry : DefinitionRegistry F) : DeviceDefinition F → Nat → Nat → Prop
  | primitive {definition : DeviceDefinition F} {kind : PrimitiveElementKind} {i j : Nat} {a b : NodeId}
      {partition : DevicePartitionId} (body : definition.body = .primitive kind)
      (left : definition.terminals[i]? = some a) (right : definition.terminals[j]? = some b)
      (leftIn : definition.terminalPartitions[i]? = some partition)
      (rightIn : definition.terminalPartitions[j]? = some partition) : Flat registry definition a.index b.index
  | element {definition child : DeviceDefinition F} {circuit : Circuit F} {element : Element F} {i j : Nat}
      {a b m n : NodeId} (body : definition.body = .composite circuit) (member : element ∈ circuit.elements)
      (known : registry.get element.definition = some child) (left : element.terminals[i]? = some a)
      (right : element.terminals[j]? = some b) (innerLeft : child.terminals[i]? = some m)
      (innerRight : child.terminals[j]? = some n) (inside : Flat registry child m.index n.index) :
      Flat registry definition a.index b.index
  | refl {definition : DeviceDefinition F} (node : Nat) : Flat registry definition node node
  | symm {definition : DeviceDefinition F} {x y : Nat} (h : Flat registry definition x y) : Flat registry definition y x
  | trans {definition : DeviceDefinition F} {x y z : Nat} (h : Flat registry definition x y)
      (h' : Flat registry definition y z) : Flat registry definition x z

/-- Where the partitions of the child after some elements start. -/
def DefinitionRegistry.partitionOffset (registry : DefinitionRegistry F) (elements : List (Element F)) : Nat :=
  elements.foldl (fun offset element => offset + ((registry.get element.definition).map (·.partitionCount)).getD 0) 0

theorem DefinitionRegistry.partitionOffset_append {registry : DefinitionRegistry F} {done : List (Element F)}
    {element : Element F} {child : DeviceDefinition F} (known : registry.get element.definition = some child) :
    registry.partitionOffset (done ++ [element]) = registry.partitionOffset done + child.partitionCount := by
  unfold partitionOffset
  rw [List.foldl_append, List.foldl_cons, List.foldl_nil, known]
  rfl

/-- Partitions of a definition that hold something: a terminal, or what a partition of a child holds. -/
inductive Occupied (registry : DefinitionRegistry F) : DeviceDefinition F → Nat → Prop
  | terminal {definition : DeviceDefinition F} {partition : DevicePartitionId}
      (member : partition ∈ definition.terminalPartitions) : Occupied registry definition partition.index
  | element {definition child : DeviceDefinition F} {circuit : Circuit F} {element : Element F} {k inner : Nat}
      {partition : DevicePartitionId} (body : definition.body = .composite circuit)
      (read : circuit.elements[k]? = some element) (known : registry.get element.definition = some child)
      (inside : Occupied registry child inner) (bound : inner < child.partitionCount)
      (mapped : definition.elementPartitions[registry.partitionOffset (circuit.elements.take k) + inner]? = some partition) :
      Occupied registry definition partition.index

/-! ### Numbering -/

namespace DevicePartitionLayout

theorem canonical_append (partitions : List DevicePartitionId) (partition : DevicePartitionId) :
    canonicalExposedPartitionCount (partitions ++ [partition]) =
      (canonicalExposedPartitionCount partitions).bind fun next =>
        if partition.index > next then none else if partition.index = next then some (next + 1) else some next := by
  unfold canonicalExposedPartitionCount
  rw [List.foldlM_append]
  refine congrArg (Option.bind _) (funext fun next => ?_)
  rw [List.foldlM_cons]
  split
  · rfl
  · split <;> rfl

theorem canonical_known {partitions : List DevicePartitionId} {partition : DevicePartitionId} {next : Nat}
    (counted : canonicalExposedPartitionCount partitions = some next) (below : partition.index < next) :
    canonicalExposedPartitionCount (partitions ++ [partition]) = some next := by
  rw [canonical_append, counted]
  show (if _ then none else if _ then _ else _) = _
  rw [if_neg (by omega), if_neg (by omega)]

theorem canonical_fresh {partitions : List DevicePartitionId} {partition : DevicePartitionId} {next : Nat}
    (counted : canonicalExposedPartitionCount partitions = some next) (fresh : partition.index = next) :
    canonicalExposedPartitionCount (partitions ++ [partition]) = some (next + 1) := by
  rw [canonical_append, counted]
  show (if _ then none else if _ then _ else _) = _
  rw [if_neg (by omega), if_pos fresh]

/-- The ids up to the count occur, and no others. -/
theorem canonical_mem {partitions : List DevicePartitionId} {next : Nat}
    (counted : canonicalExposedPartitionCount partitions = some next) (index : Nat) :
    index < next ↔ ∃ partition ∈ partitions, partition.index = index := by
  induction partitions using List.reverseRecOn generalizing next with
  | nil =>
    obtain rfl := Option.some.inj counted
    exact iff_of_false (Nat.not_lt_zero _) fun ⟨_, member, _⟩ => List.not_mem_nil member
  | append_singleton partitions last ih =>
    rw [canonical_append] at counted
    obtain ⟨before, counted, stepped⟩ := Option.bind_eq_some_iff.mp counted
    have here := ih counted
    have split : (∃ partition ∈ partitions ++ [last], partition.index = index) ↔ index < before ∨ last.index = index := by
      rw [here]
      simp only [List.mem_append, List.mem_singleton, or_and_right, exists_or, exists_eq_left]
    rw [split]
    split at stepped
    · cases stepped
    · split at stepped
      · obtain rfl := Option.some.inj stepped
        omega
      · obtain rfl := Option.some.inj stepped
        omega

end DevicePartitionLayout

/-! ### Joining -/

/-- Two nodes are listed with one partition. -/
def JoinedIn (terminals : List (NodeId × DevicePartitionId)) (x y : Nat) : Prop :=
  ∃ first ∈ terminals, ∃ second ∈ terminals, first.2 = second.2 ∧ first.1.index = x ∧ second.1.index = y

theorem JoinedIn.mono {terminals more : List (NodeId × DevicePartitionId)} (sub : ∀ t ∈ terminals, t ∈ more) {x y : Nat}
    (h : JoinedIn terminals x y) : JoinedIn more x y := by
  obtain ⟨first, member, second, member', rest⟩ := h
  exact ⟨first, sub _ member, second, sub _ member', rest⟩

namespace DeviceDefinitionBuilder

variable {self : DeviceDefinitionBuilder F}

/-- What the loop over the terminals of an element has done. -/
structure Joining (n : Nat) (R : Nat → Nat → Prop) (seen : Nat → Prop) (done : List (NodeId × DevicePartitionId))
    (state : UnionFind × List Bool × List (Option Nat)) : Prop where
  sound : UnionFind.Sound n state.1
  classes : Classes state.1.parents fun x y => R x y ∨ JoinedIn done x y
  inside : ∀ terminal ∈ done, terminal.1.index < n
  length : state.2.1.length = n
  referenced : ∀ x, state.2.1[x]? = some true ↔ x < n ∧ (seen x ∨ ∃ terminal ∈ done, terminal.1.index = x)
  anchored : ∀ c node, state.2.2[c]? = some (some node) →
    ∃ terminal ∈ done, terminal.1.index = node ∧ terminal.2.index = c
  free : ∀ c, state.2.2[c]? = some none → ∀ terminal ∈ done, terminal.2.index ≠ c

theorem joinTerminal_step {n : Nat} {R : Nat → Nat → Prop} {seen : Nat → Prop}
    {done : List (NodeId × DevicePartitionId)} {state after : UnionFind × List Bool × List (Option Nat)}
    {terminal : NodeId × DevicePartitionId} (bounded : ∀ i j, R i j → i < n ∧ j < n)
    (h : Joining n R seen done state) (run : joinTerminal state terminal = some after) :
    Joining n R seen (done ++ [terminal]) after := by
  obtain ⟨unionFind, referenced, anchors⟩ := state
  obtain ⟨marked, assigned, run⟩ := Option.bind_eq_some_iff.mp run
  obtain ⟨anchor, read, run⟩ := Option.bind_eq_some_iff.mp run
  obtain ⟨within, rfl⟩ := assign_eq_some.mp assigned
  have length : referenced.length = n := h.length
  have here : terminal.1.index < n := length ▸ within
  have last : ∀ {P : NodeId × DevicePartitionId → Prop}, (∃ t ∈ done ++ [terminal], P t) ↔ (∃ t ∈ done, P t) ∨ P terminal := by
    intro P
    constructor
    · rintro ⟨t, member, holds⟩
      rcases List.mem_append.mp member with old | new
      · exact Or.inl ⟨t, old, holds⟩
      · exact Or.inr (List.mem_singleton.mp new ▸ holds)
    · rintro (⟨t, member, holds⟩ | holds)
      · exact ⟨t, List.mem_append_left _ member, holds⟩
      · exact ⟨terminal, List.mem_append_right _ (List.mem_singleton_self _), holds⟩
  have more : ∀ t ∈ done, t ∈ done ++ [terminal] := fun t member => List.mem_append_left _ member
  have new : terminal ∈ done ++ [terminal] := List.mem_append_right _ (List.mem_singleton_self _)
  have bounded' : ∀ i j, (R i j ∨ JoinedIn done i j) → i < n ∧ j < n := by
    rintro i j (related | ⟨first, member, second, member', -, rfl, rfl⟩)
    · exact bounded i j related
    · exact ⟨h.inside _ member, h.inside _ member'⟩
  have insideAll : ∀ t ∈ done ++ [terminal], t.1.index < n := by
    intro t member
    rcases List.mem_append.mp member with old | new
    · exact h.inside t old
    · exact List.mem_singleton.mp new ▸ here
  have marks : ∀ x, (referenced.set terminal.1.index true)[x]? = some true ↔
      x < n ∧ (seen x ∨ ∃ t ∈ done ++ [terminal], t.1.index = x) := by
    intro x
    rw [List.getElem?_set, last]
    by_cases same : terminal.1.index = x
    · rw [if_pos same, if_pos within]
      exact iff_of_true rfl ⟨same ▸ here, Or.inr (Or.inr same)⟩
    · rw [if_neg same, h.referenced]
      simp [same]
  have small : (referenced.set terminal.1.index true).length = n := List.length_set.trans length
  cases anchor with
  | some anchor =>
    obtain ⟨joined, united, run⟩ := Option.bind_eq_some_iff.mp run
    obtain rfl := Option.some.inj run
    obtain ⟨earlier, member, atAnchor, samePartition⟩ := h.anchored _ _ read
    have insideAnchor : anchor < n := atAnchor ▸ h.inside _ member
    obtain ⟨after, united', sound, classes⟩ := UnionFind.union_spec h.sound here insideAnchor bounded' h.classes
    obtain rfl := Option.some.inj (united'.symm.trans united)
    have samePartition : earlier.2 = terminal.2 := Id.ext' samePartition
    refine ⟨sound, classes.congr ?_ ?_, insideAll, small, marks, ?_, ?_⟩
    · rintro i j ((related | joined) | ⟨rfl, rfl⟩)
      · exact .rel _ _ (Or.inl related)
      · exact .rel _ _ (Or.inr (joined.mono more))
      · exact .rel _ _ (Or.inr ⟨terminal, new, earlier, more _ member, samePartition.symm, rfl, atAnchor⟩)
    · have toAnchor : EqvGen (fun i j => (R i j ∨ JoinedIn done i j) ∨ (i = terminal.1.index ∧ j = anchor))
          terminal.1.index anchor := .rel _ _ (Or.inr ⟨rfl, rfl⟩)
      have fromAnchor : ∀ t ∈ done, t.2 = terminal.2 →
          EqvGen (fun i j => (R i j ∨ JoinedIn done i j) ∨ (i = terminal.1.index ∧ j = anchor)) anchor t.1.index :=
        fun t member' same => .rel _ _ (Or.inl (Or.inr ⟨earlier, member, t, member', samePartition.trans same.symm,
          atAnchor, rfl⟩))
      rintro i j (related | ⟨first, isFirst, second, isSecond, same, rfl, rfl⟩)
      · exact .rel _ _ (Or.inl (Or.inl related))
      · rcases List.mem_append.mp isFirst with old | new
        · rcases List.mem_append.mp isSecond with old' | new'
          · exact .rel _ _ (Or.inl (Or.inr ⟨first, old, second, old', same, rfl, rfl⟩))
          · obtain rfl := List.mem_singleton.mp new'
            exact .symm _ _ (.trans _ _ _ toAnchor (fromAnchor first old same))
        · obtain rfl := List.mem_singleton.mp new
          rcases List.mem_append.mp isSecond with old' | new'
          · exact .trans _ _ _ toAnchor (fromAnchor second old' same.symm)
          · obtain rfl := List.mem_singleton.mp new'
            exact .refl _
    · intro c node isAnchor
      obtain ⟨t, member, there⟩ := h.anchored c node isAnchor
      exact ⟨t, more _ member, there⟩
    · intro c unanchored t member
      rcases List.mem_append.mp member with old | new
      · exact h.free c unanchored t old
      · obtain rfl := List.mem_singleton.mp new
        rintro rfl
        cases unanchored.symm.trans read
  | none =>
    obtain rfl := Option.some.inj run
    have free := h.free _ read
    refine ⟨h.sound, h.classes.congr ?_ ?_, insideAll, small, marks, ?_, ?_⟩
    · rintro i j (related | joined)
      · exact .rel _ _ (Or.inl related)
      · exact .rel _ _ (Or.inr (joined.mono more))
    · rintro i j (related | ⟨first, isFirst, second, isSecond, same, rfl, rfl⟩)
      · exact .rel _ _ (Or.inl related)
      · rcases List.mem_append.mp isFirst with old | new
        · rcases List.mem_append.mp isSecond with old' | new'
          · exact .rel _ _ (Or.inr ⟨first, old, second, old', same, rfl, rfl⟩)
          · obtain rfl := List.mem_singleton.mp new'
            exact absurd (congrArg Id.index same) (free first old)
        · obtain rfl := List.mem_singleton.mp new
          rcases List.mem_append.mp isSecond with old' | new'
          · exact absurd (congrArg Id.index same.symm) (free second old')
          · obtain rfl := List.mem_singleton.mp new'
            exact .refl _
    · intro c node isAnchor
      rw [List.getElem?_set] at isAnchor
      split at isAnchor
      · rename_i same
        split at isAnchor
        · obtain rfl := Option.some.inj (Option.some.inj isAnchor)
          exact ⟨terminal, new, rfl, same⟩
        · cases isAnchor
      · obtain ⟨t, member, there⟩ := h.anchored c node isAnchor
        exact ⟨t, more _ member, there⟩
    · intro c unanchored t member
      rw [List.getElem?_set] at unanchored
      split at unanchored
      · split at unanchored
        · cases unanchored
        · cases unanchored
      · rename_i different
        rcases List.mem_append.mp member with old | new
        · exact h.free c unanchored t old
        · exact List.mem_singleton.mp new ▸ different

/-- What elements join, by the partitions of their definitions. -/
def ElementsJoin (self : DeviceDefinitionBuilder F) (elements : List (Element F)) (x y : Nat) : Prop :=
  ∃ element ∈ elements, ∃ child, self.definitionOf element = some child ∧
    JoinedIn (element.terminals.zip child.terminalPartitions) x y

/-- Nodes that elements use. -/
def ElementsUse (self : DeviceDefinitionBuilder F) (elements : List (Element F)) (x : Nat) : Prop :=
  ∃ element ∈ elements, ∃ child, self.definitionOf element = some child ∧
    ∃ terminal ∈ element.terminals.zip child.terminalPartitions, terminal.1.index = x

/-- What the loop over the elements has done. -/
structure Joined (builder : DeviceDefinitionBuilder F) (done : List (Element F)) (state : UnionFind × List Bool) : Prop where
  sound : UnionFind.Sound builder.nodeCount state.1
  classes : Classes state.1.parents (builder.ElementsJoin done)
  length : state.2.length = builder.nodeCount
  referenced : ∀ x, state.2[x]? = some true ↔ x < builder.nodeCount ∧ builder.ElementsUse done x
  inside : ∀ x, builder.ElementsUse done x → x < builder.nodeCount
  known : ∀ element ∈ done, ∃ child, builder.definitionOf element = some child

theorem ElementsJoin.uses {elements : List (Element F)} {x y : Nat} (h : self.ElementsJoin elements x y) :
    self.ElementsUse elements x ∧ self.ElementsUse elements y := by
  obtain ⟨element, member, child, known, first, isFirst, second, isSecond, -, rfl, rfl⟩ := h
  exact ⟨⟨element, member, child, known, first, isFirst, rfl⟩, ⟨element, member, child, known, second, isSecond, rfl⟩⟩

theorem elementsJoin_append {done : List (Element F)} {element : Element F} {child : DeviceDefinition F}
    (known : self.definitionOf element = some child) (x y : Nat) : self.ElementsJoin (done ++ [element]) x y ↔
      self.ElementsJoin done x y ∨ JoinedIn (element.terminals.zip child.terminalPartitions) x y := by
  constructor
  · rintro ⟨other, member, definition, known', joined⟩
    rcases List.mem_append.mp member with old | new
    · exact Or.inl ⟨other, old, definition, known', joined⟩
    · obtain rfl := List.mem_singleton.mp new
      obtain rfl := Option.some.inj (known'.symm.trans known)
      exact Or.inr joined
  · rintro (⟨other, member, rest⟩ | joined)
    · exact ⟨other, List.mem_append_left _ member, rest⟩
    · exact ⟨element, List.mem_append_right _ (List.mem_singleton_self _), child, known, joined⟩

theorem elementsUse_append {done : List (Element F)} {element : Element F} {child : DeviceDefinition F}
    (known : self.definitionOf element = some child) (x : Nat) : self.ElementsUse (done ++ [element]) x ↔
      self.ElementsUse done x ∨ ∃ terminal ∈ element.terminals.zip child.terminalPartitions, terminal.1.index = x := by
  constructor
  · rintro ⟨other, member, definition, known', used⟩
    rcases List.mem_append.mp member with old | new
    · exact Or.inl ⟨other, old, definition, known', used⟩
    · obtain rfl := List.mem_singleton.mp new
      obtain rfl := Option.some.inj (known'.symm.trans known)
      exact Or.inr used
  · rintro (⟨other, member, rest⟩ | used)
    · exact ⟨other, List.mem_append_left _ member, rest⟩
    · exact ⟨element, List.mem_append_right _ (List.mem_singleton_self _), child, known, used⟩

theorem joined_new : self.Joined [] (.new self.nodeCount, List.replicate self.nodeCount false) := by
  have nothing : ∀ x, ¬ self.ElementsUse [] x := by
    rintro x ⟨element, member, -⟩
    cases member
  refine ⟨UnionFind.sound_new _, (UnionFind.classes_new _).congr (fun _ _ impossible => impossible.elim) ?_,
    List.length_replicate, fun x => ?_, fun x used => (nothing x used).elim, fun _ member => (List.not_mem_nil member).elim⟩
  · intro x y joined
    exact (nothing x joined.uses.1).elim
  · refine iff_of_false ?_ fun h => nothing x h.2
    rw [List.getElem?_replicate]
    split <;> simp

/-- The loop over the terminals of the next element starts. -/
theorem Joined.joining {done : List (Element F)} {unionFind : UnionFind} {referenced : List Bool}
    (h : self.Joined done (unionFind, referenced)) (exposed : Nat) :
    Joining self.nodeCount (self.ElementsJoin done) (self.ElementsUse done) []
      (unionFind, referenced, List.replicate exposed none) := by
  have nothing : ∀ x y, ¬ JoinedIn [] x y := by
    rintro x y ⟨first, member, -⟩
    cases member
  refine ⟨h.sound, h.classes.congr (fun _ _ joined => .rel _ _ (Or.inl joined)) ?_,
    fun _ member => (List.not_mem_nil member).elim, h.length, fun x => ?_, ?_,
    fun _ _ _ member => (List.not_mem_nil member).elim⟩
  · rintro x y (joined | joined)
    · exact .rel _ _ joined
    · exact (nothing x y joined).elim
  · rw [h.referenced]
    simp
  · intro c node read
    rw [List.getElem?_replicate] at read
    split at read <;> cases read

theorem Joined.bounded {done : List (Element F)} {state : UnionFind × List Bool} (h : self.Joined done state) :
    ∀ x y, self.ElementsJoin done x y → x < self.nodeCount ∧ y < self.nodeCount := fun x y joined =>
  ⟨h.inside x joined.uses.1, h.inside y joined.uses.2⟩

theorem joinElement_step {done : List (Element F)} {state after : UnionFind × List Bool} {element : Element F}
    (h : self.Joined done state) (run : self.joinElement state element = some after) :
    self.Joined (done ++ [element]) after := by
  obtain ⟨unionFind, referenced⟩ := state
  obtain ⟨child, known, run⟩ := Option.bind_eq_some_iff.mp run
  obtain ⟨⟨unionFind', referenced', anchors⟩, folded, run⟩ := Option.bind_eq_some_iff.mp run
  obtain rfl := Option.some.inj run
  have start := h.joining child.exposedPartitionCount
  have loop : Returns True ((element.terminals.zip child.terminalPartitions).foldlM joinTerminal
      (unionFind, referenced, List.replicate child.exposedPartitionCount none))
      (Joining self.nodeCount (self.ElementsJoin done) (self.ElementsUse done)
        (element.terminals.zip child.terminalPartitions)) := by
    refine Returns.foldlM (Joining self.nodeCount (self.ElementsJoin done) (self.ElementsUse done)) start ?_
    intro before terminal rest state _ joining
    cases taken : joinTerminal state terminal with
    | none => exact trivial
    | some next => exact joinTerminal_step h.bounded joining taken
  rw [folded] at loop
  have joining : Joining _ _ _ _ _ := loop
  refine ⟨joining.sound, joining.classes.congr (fun x y joined => .rel _ _ ((elementsJoin_append known x y).mpr joined))
    (fun x y joined => .rel _ _ ((elementsJoin_append known x y).mp joined)), joining.length, fun x => ?_, fun x used => ?_, ?_⟩
  · rw [elementsUse_append known]
    exact joining.referenced x
  · rcases (elementsUse_append known x).mp used with used | ⟨terminal, member, rfl⟩
    · exact h.inside x used
    · exact joining.inside terminal member
  · intro other member
    rcases List.mem_append.mp member with old | new
    · exact h.known other old
    · exact List.mem_singleton.mp new ▸ ⟨child, known⟩

theorem joinElements {state : UnionFind × List Bool}
    (run : self.elements.foldlM self.joinElement (.new self.nodeCount, List.replicate self.nodeCount false) = some state) :
    self.Joined self.elements state := by
  have loop : Returns True (self.elements.foldlM self.joinElement
      (.new self.nodeCount, List.replicate self.nodeCount false)) (self.Joined self.elements) := by
    refine Returns.foldlM self.Joined joined_new ?_
    intro done element rest state _ joined
    cases taken : self.joinElement state element with
    | none => exact trivial
    | some next => exact joinElement_step joined taken
  rw [run] at loop
  exact loop

/-! ### Partitions of nodes -/

open DevicePartitionLayout (canonicalExposedPartitionCount canonical_known canonical_fresh canonical_mem)

/-- The class of the node has the partition. -/
def PartitionAt (unionFind : UnionFind) (rootPartitions : List (Option DevicePartitionId)) (node : Nat)
    (partition : DevicePartitionId) : Prop :=
  ∃ root, RootOf unionFind.parents node root ∧ rootPartitions[root]? = some (some partition)

theorem PartitionAt.unique {unionFind : UnionFind} {roots : List (Option DevicePartitionId)} {node : Nat}
    {p q : DevicePartitionId} (h : PartitionAt unionFind roots node p) (h' : PartitionAt unionFind roots node q) :
    p = q := by
  obtain ⟨root, here, read⟩ := h
  obtain ⟨root', here', read'⟩ := h'
  obtain rfl := here.unique here'
  exact Option.some.inj (Option.some.inj (read.symm.trans read'))

theorem PartitionAt.roots {before after : UnionFind} (same : UnionFind.SameRoots before after)
    {roots : List (Option DevicePartitionId)} {node : Nat} {partition : DevicePartitionId} :
    PartitionAt after roots node partition ↔ PartitionAt before roots node partition := by
  unfold PartitionAt
  simp only [same.roots]

/-- Classes have partitions of their own, handed out in the order of a sequence. -/
structure Numbering (n : Nat) (R : Nat → Nat → Prop) (sequence : List DevicePartitionId)
    (state : UnionFind × List (Option DevicePartitionId) × Nat) : Prop where
  sound : UnionFind.Sound n state.1
  classes : Classes state.1.parents R
  length : state.2.1.length = n
  injective : ∀ (r s : Nat) partition, state.2.1[r]? = some (some partition) → state.2.1[s]? = some (some partition) → r = s
  below : ∀ (r : Nat) (partition : DevicePartitionId), state.2.1[r]? = some (some partition) → partition.index < state.2.2
  counted : canonicalExposedPartitionCount sequence = some state.2.2

variable {n : Nat} {R : Nat → Nat → Prop} {sequence : List DevicePartitionId}
  {state after : UnionFind × List (Option DevicePartitionId) × Nat} {partition : DevicePartitionId} {node : Nat}

/-- Partitions are not taken back. -/
def KeepsPartitions (state after : UnionFind × List (Option DevicePartitionId) × Nat) : Prop :=
  ∀ node partition, PartitionAt state.1 state.2.1 node partition → PartitionAt after.1 after.2.1 node partition

theorem KeepsPartitions.trans {last : UnionFind × List (Option DevicePartitionId) × Nat}
    (h : KeepsPartitions state after) (h' : KeepsPartitions after last) : KeepsPartitions state last :=
  fun node partition at' => h' node partition (h node partition at')

theorem Numbering.known (h : Numbering n R sequence state) (at' : PartitionAt state.1 state.2.1 node partition) :
    Numbering n R (sequence ++ [partition]) state := by
  obtain ⟨root, -, read⟩ := at'
  exact ⟨h.sound, h.classes, h.length, h.injective, h.below, canonical_known h.counted (h.below root partition read)⟩

theorem partitionOf_numbers (h : Numbering n R sequence state) (inside : node < n)
    (run : partitionOf state node = some (.ok (partition, after))) :
    Numbering n R (sequence ++ [partition]) after ∧ PartitionAt after.1 after.2.1 node partition ∧
      KeepsPartitions state after := by
  obtain ⟨unionFind, roots, next⟩ := state
  obtain ⟨root, found, finds, here, sound, same⟩ := UnionFind.find_spec h.sound inside
  unfold partitionOf at run
  dsimp only at run
  rw [finds] at run
  dsimp only at run
  have here' : RootOf found.parents node root := (same.roots _ _).mpr here
  have within : root < roots.length := by
    have := (List.getElem?_eq_some_iff.mp here.isRoot).1
    rwa [h.sound.parents, ← h.length] at this
  split at run
  · cases run
  · rename_i known read
    simp only [Option.some.injEq, Except.ok.injEq, Prod.mk.injEq] at run
    obtain ⟨rfl, rfl⟩ := run
    have at' : PartitionAt found roots node known := ⟨root, here', read⟩
    have kept : Numbering n R sequence (found, roots, next) :=
      ⟨sound, same.classes h.classes, h.length, h.injective, h.below, h.counted⟩
    exact ⟨kept.known at', at', fun _ _ earlier => (PartitionAt.roots same).mpr earlier⟩
  · rename_i read
    split at run
    · cases run
    · rename_i fresh after' allocated
      simp only [Option.some.injEq, Except.ok.injEq, Prod.mk.injEq] at run
      obtain ⟨rfl, rfl⟩ := run
      obtain ⟨isNext, rfl⟩ := allocatePartition_ok allocated
      have atRoot : (roots.set root (some fresh))[root]? = some (some fresh) := by
        rw [List.getElem?_set, if_pos rfl, if_pos within]
      have other : ∀ r p, (roots.set root (some fresh))[r]? = some (some p) →
          (r = root ∧ p = fresh) ∨ (r ≠ root ∧ roots[r]? = some (some p)) := by
        intro r p read'
        by_cases same : r = root
        · rw [same, atRoot] at read'
          exact Or.inl ⟨same, (Option.some.inj (Option.some.inj read')).symm⟩
        · rw [List.getElem?_set, if_neg (Ne.symm same)] at read'
          exact Or.inr ⟨same, read'⟩
      refine ⟨⟨sound, same.classes h.classes, List.length_set.trans h.length, ?_, ?_,
        canonical_fresh h.counted isNext⟩, ⟨root, here', atRoot⟩, ?_⟩
      · intro r s p readR readS
        rcases other r p readR with ⟨isRoot, isFresh⟩ | ⟨-, earlierR⟩
        · rcases other s p readS with ⟨isRoot', -⟩ | ⟨-, earlierS⟩
          · exact isRoot.trans isRoot'.symm
          · have below : p.index < next := h.below s p earlierS
            rw [isFresh] at below
            omega
        · rcases other s p readS with ⟨-, isFresh⟩ | ⟨-, earlierS⟩
          · have below : p.index < next := h.below r p earlierR
            rw [isFresh] at below
            omega
          · exact h.injective r s p earlierR earlierS
      · intro r p read'
        show p.index < next + 1
        rcases other r p read' with ⟨-, rfl⟩ | ⟨-, read'⟩
        · omega
        · exact (h.below r p read').trans (Nat.lt_succ_self _)
      · rintro x p ⟨r, root', read'⟩
        refine ⟨r, (same.roots _ _).mpr root', ?_⟩
        have different : root ≠ r := by
          rintro rfl
          cases read'.symm.trans read
        show (roots.set root (some fresh))[r]? = _
        rw [List.getElem?_set, if_neg different]
        exact read'

/-- The terminals come first. -/
theorem deriveTerminalPartitions_numbers {terminals : List NodeId} {partitions : List DevicePartitionId}
    (h : Numbering n R [] state) (inside : ∀ terminal ∈ terminals, terminal.index < n)
    (run : deriveTerminalPartitions terminals state = some (.ok (partitions, after))) :
    Numbering n R partitions after ∧ partitions.length = terminals.length ∧
      ∀ (i : Nat) terminal, terminals[i]? = some terminal →
        ∃ partition, partitions[i]? = some partition ∧ PartitionAt after.1 after.2.1 terminal.index partition := by
  refine Derive.fold_split_ok (fun done (loop : List DevicePartitionId × UnionFind × _ × _) =>
    Numbering n R loop.1 loop.2 ∧ loop.1.length = done.length ∧
      ∀ (i : Nat) terminal, done[i]? = some terminal →
        ∃ partition, loop.1[i]? = some partition ∧ PartitionAt loop.2.1 loop.2.2.1 terminal.index partition) ?_ ?_ run
  · exact ⟨h, rfl, fun i terminal read => by cases read⟩
  · rintro done terminal rest ⟨partitions, state⟩ loop split ⟨numbered, length, placed⟩ taken
    obtain ⟨⟨partition, after⟩, found, taken⟩ := Derive.bind_ok.mp taken
    obtain rfl := Except.ok.inj (Option.some.inj taken)
    have member : terminal ∈ terminals := by
      rw [split]
      exact List.mem_append_right _ List.mem_cons_self
    obtain ⟨numbered', at', keeps⟩ := partitionOf_numbers numbered (inside terminal member) found
    refine ⟨numbered', by simp [length], fun i other read => ?_⟩
    dsimp only at length ⊢
    by_cases earlier : i < done.length
    · rw [List.getElem?_append_left earlier] at read
      obtain ⟨p, read', at''⟩ := placed i other read
      exact ⟨p, by rw [List.getElem?_append_left (length ▸ earlier), read'], keeps _ _ at''⟩
    · have last : i = done.length := by
        have := (List.getElem?_eq_some_iff.mp read).1
        rw [List.length_append, List.length_singleton] at this
        omega
      subst last
      rw [List.getElem?_concat_length] at read
      obtain rfl := Option.some.inj read
      exact ⟨partition, by rw [← length, List.getElem?_concat_length], at'⟩

/-- Every node gets a partition: it is a terminal, or its turn comes. -/
theorem deriveInternalPartitions_numbers {referenced : List Bool} {partitions : List DevicePartitionId}
    (h : Numbering n R partitions state) (length : referenced.length = n)
    (used : ∀ x < n, referenced[x]? = some true ∨ ∃ partition, PartitionAt state.1 state.2.1 x partition)
    (run : deriveInternalPartitions referenced state = some (.ok after)) :
    ∃ nodes : List DevicePartitionId, nodes.length = n ∧ Numbering n R (partitions ++ nodes) after ∧
      KeepsPartitions state after ∧
      ∀ x < n, ∃ partition, nodes[x]? = some partition ∧ PartitionAt after.1 after.2.1 x partition := by
  have loop := Derive.fold_split_ok (fun done (loop : UnionFind × List (Option DevicePartitionId) × Nat) =>
    ∃ nodes : List DevicePartitionId, nodes.length = done.length ∧ Numbering n R (partitions ++ nodes) loop ∧
      KeepsPartitions state loop ∧
      ∀ x < done.length, ∃ partition, nodes[x]? = some partition ∧ PartitionAt loop.1 loop.2.1 x partition) ?_ ?_ run
  · rw [List.length_zipIdx, length] at loop
    exact loop
  · exact ⟨[], rfl, by rwa [List.append_nil], fun _ _ at' => at', fun x impossible => absurd impossible (Nat.not_lt_zero _)⟩
  · rintro done ⟨isReferenced, nodeIndex⟩ rest loop next split ⟨nodes, sameLength, numbered, keeps, placed⟩ taken
    have position : (referenced.zipIdx)[done.length]? = some (isReferenced, nodeIndex) := by
      rw [split, List.getElem?_append_right (Nat.le_refl _), Nat.sub_self]
      rfl
    rw [List.getElem?_zipIdx] at position
    obtain ⟨flag, read, same⟩ := Option.map_eq_some_iff.mp position
    obtain ⟨rfl, here⟩ := Prod.mk.inj same
    have here : done.length = nodeIndex := by omega
    have inside : done.length < n := length ▸ (List.getElem?_eq_some_iff.mp read).1
    have extend : ∀ {last : UnionFind × List (Option DevicePartitionId) × Nat} {p : DevicePartitionId},
        Numbering n R (partitions ++ nodes ++ [p]) last → KeepsPartitions loop last →
        PartitionAt last.1 last.2.1 done.length p →
        ∃ nodes : List DevicePartitionId, nodes.length = (done ++ [(flag, nodeIndex)]).length ∧
          Numbering n R (partitions ++ nodes) last ∧ KeepsPartitions state last ∧
          ∀ x < (done ++ [(flag, nodeIndex)]).length, ∃ partition, nodes[x]? = some partition ∧
            PartitionAt last.1 last.2.1 x partition := by
      intro last p numbered' keeps' at'
      refine ⟨nodes ++ [p], by simp [sameLength], by rwa [← List.append_assoc], keeps.trans keeps', fun x bound => ?_⟩
      by_cases earlier : x < done.length
      · obtain ⟨q, read', at''⟩ := placed x earlier
        exact ⟨q, by rw [List.getElem?_append_left (sameLength ▸ earlier), read'], keeps' _ _ at''⟩
      · rw [List.length_append, List.length_singleton] at bound
        obtain rfl : x = done.length := by omega
        exact ⟨p, by rw [← sameLength, List.getElem?_concat_length], at'⟩
    dsimp only at taken
    split at taken
    · obtain ⟨⟨p, last⟩, found, taken⟩ := Derive.bind_ok.mp taken
      obtain rfl := Except.ok.inj (Option.some.inj taken)
      rw [← here] at found
      obtain ⟨numbered', at', keeps'⟩ := partitionOf_numbers numbered inside found
      exact extend numbered' keeps' at'
    · rename_i unreferenced
      obtain rfl := Except.ok.inj (Option.some.inj taken)
      rcases used done.length inside with yes | ⟨p, at'⟩
      · exact absurd (Option.some.inj (read.symm.trans yes)) unreferenced
      · exact extend (numbered.known (keeps _ _ at')) (fun _ _ at'' => at'') (keeps _ _ at')

/-! ### Partitions of children -/

/-- An anchor is a terminal of its partition. -/
theorem partitionAnchors_sound {element : Element F} {child : DeviceDefinition F} {anchors : List (Option Nat)}
    (run : partitionAnchors element child = some anchors) (c node : Nat) (anchored : anchors[c]? = some (some node)) :
    ∃ terminal ∈ element.terminals.zip child.terminalPartitions, terminal.1.index = node ∧ terminal.2.index = c := by
  have loop : Returns True (partitionAnchors element child) fun anchors => ∀ c node : Nat,
      anchors[c]? = some (some node) →
      ∃ terminal ∈ element.terminals.zip child.terminalPartitions, terminal.1.index = node ∧ terminal.2.index = c := by
    unfold partitionAnchors
    refine Returns.foldlM (fun (done : List (NodeId × DevicePartitionId)) (anchors : List (Option Nat)) => ∀ c node : Nat, anchors[c]? = some (some node) →
      ∃ terminal ∈ done, terminal.1.index = node ∧ terminal.2.index = c) ?_ ?_
    · intro c node read
      rw [List.getElem?_replicate] at read
      split at read <;> cases read
    · intro done terminal rest anchors _ holds
      have holds' : ∀ c node : Nat, anchors[c]? = some (some node) →
          ∃ t ∈ done ++ [terminal], t.1.index = node ∧ t.2.index = c := by
        intro c node read
        obtain ⟨t, member, here⟩ := holds c node read
        exact ⟨t, List.mem_append_left _ member, here⟩
      cases anchors[terminal.2.index]? with
      | none => exact trivial
      | some anchor =>
        cases anchor with
        | some _ => exact holds'
        | none =>
          intro c node read
          rw [List.getElem?_set] at read
          split at read
          · rename_i same
            split at read
            · obtain rfl := Option.some.inj (Option.some.inj read)
              exact ⟨terminal, List.mem_append_right _ (List.mem_singleton_self _), rfl, same⟩
            · cases read
          · exact holds' c node read
  rw [run] at loop
  exact loop c node anchored

/-- What the loop over the children has done, after the nodes were numbered. -/
structure Mapping (base : List DevicePartitionId) (numbering : UnionFind × List (Option DevicePartitionId) × Nat)
    (state : List DevicePartitionId × UnionFind × Nat) : Prop where
  sound : ∃ n, UnionFind.Sound n state.2.1
  same : UnionFind.SameRoots numbering.1 state.2.1
  grown : numbering.2.2 ≤ state.2.2
  counted : canonicalExposedPartitionCount (base ++ state.1) = some state.2.2

section Children

variable {base : List DevicePartitionId} {loop next : List DevicePartitionId × UnionFind × Nat}

/-- One partition of a child: that of its anchor where it is exposed, a new one else. -/
theorem childPartition_maps (h : Numbering n R base state) (mapping : Mapping base state loop) {exposed c : Nat}
    {anchors : List (Option Nat)} (run : childPartition exposed anchors state.2.1 loop c = some (.ok next)) :
    Mapping base state next ∧ ∃ partition, next.1 = loop.1 ++ [partition] ∧
      (c < exposed → ∃ node, anchors[c]? = some (some node) ∧ PartitionAt state.1 state.2.1 node partition) := by
  obtain ⟨partitions, unionFind, now⟩ := loop
  unfold childPartition at run
  dsimp only at run
  split at run
  · obtain ⟨found, there, same⟩ := Option.map_eq_some_iff.mp run
    obtain rfl := Except.ok.inj same
    obtain ⟨node, anchored, there⟩ := Option.bind_eq_some_iff.mp there
    obtain ⟨⟨root, found⟩, finds, there⟩ := Option.bind_eq_some_iff.mp there
    obtain ⟨partition, read, there⟩ := Option.bind_eq_some_iff.mp there
    obtain rfl := Option.some.inj there
    have anchored : anchors[c]? = some (some node) := Option.join_eq_some_iff.mp anchored
    have read : state.2.1[root]? = some (some partition) := Option.join_eq_some_iff.mp read
    obtain ⟨m, sound⟩ := mapping.sound
    have inside : node < m := by
      by_contra outside
      have large : unionFind.parents.length ≤ node := by
        rw [sound.parents]
        omega
      unfold UnionFind.find at finds
      cases length : unionFind.parents.length with
      | zero =>
        rw [length, UnionFind.rootOf] at finds
        cases finds
      | succ fuel =>
        rw [length, UnionFind.rootOf, List.getElem?_eq_none large] at finds
        cases finds
    obtain ⟨root', after, finds', here, sound', same⟩ := UnionFind.find_spec sound inside
    obtain ⟨rfl, rfl⟩ := Prod.mk.inj (Option.some.inj (finds.symm.trans finds'))
    have at' : PartitionAt state.1 state.2.1 node partition := ⟨root, (mapping.same.roots _ _).mp here, read⟩
    have below := h.below root partition read
    have grown : state.2.2 ≤ now := mapping.grown
    refine ⟨⟨⟨m, sound'⟩, mapping.same.trans same, grown, ?_⟩, partition, rfl, fun _ => ⟨node, anchored, at'⟩⟩
    rw [← List.append_assoc]
    exact canonical_known mapping.counted (below.trans_le grown)
  · rename_i hidden
    split at run
    · cases run
    · rename_i partition after allocated
      obtain rfl := Except.ok.inj (Option.some.inj run)
      obtain ⟨isNext, rfl⟩ := allocatePartition_ok allocated
      have grown : state.2.2 ≤ now := mapping.grown
      refine ⟨⟨mapping.sound, mapping.same, by dsimp only; omega, ?_⟩, partition, rfl,
        fun exposed => absurd exposed hidden⟩
      rw [← List.append_assoc]
      exact canonical_fresh mapping.counted isNext

/-- The partitions of one child. -/
theorem elementPartitionsOf_maps (h : Numbering n R base state) (mapping : Mapping base state loop) {element : Element F}
    (run : self.elementPartitionsOf state.2.1 loop element = some (.ok next)) :
    Mapping base state next ∧ ∃ child new, self.definitionOf element = some child ∧ next.1 = loop.1 ++ new ∧
      new.length = child.partitionCount ∧ ∀ c < child.exposedPartitionCount, c < child.partitionCount →
        ∃ terminal ∈ element.terminals.zip child.terminalPartitions, terminal.2.index = c ∧
          ∃ partition, new[c]? = some partition ∧ PartitionAt state.1 state.2.1 terminal.1.index partition := by
  unfold elementPartitionsOf at run
  split at run
  · cases run
  rename_i child known
  split at run
  · cases run
  rename_i anchors anchored
  have folded := Derive.fold_split_ok
    (fun (done : List Nat) (inner : List DevicePartitionId × UnionFind × Nat) => Mapping base state inner ∧
      ∃ new : List DevicePartitionId, inner.1 = loop.1 ++ new ∧ new.length = done.length ∧
        ∀ c < child.exposedPartitionCount, c < done.length → ∃ node, anchors[c]? = some (some node) ∧
          ∃ partition, new[c]? = some partition ∧ PartitionAt state.1 state.2.1 node partition)
    ⟨mapping, [], (List.append_nil _).symm, rfl, fun c _ impossible => absurd impossible (Nat.not_lt_zero _)⟩ ?_ run
  · obtain ⟨mapping', new, grown, length, exposed⟩ := folded
    rw [List.length_range] at length exposed
    refine ⟨mapping', child, new, known, grown, length, fun c isExposed inside => ?_⟩
    obtain ⟨node, anchor, partition, read, at'⟩ := exposed c isExposed inside
    obtain ⟨terminal, member, rfl, same⟩ := partitionAnchors_sound anchored c node anchor
    exact ⟨terminal, member, same, partition, read, at'⟩
  · rintro done c rest inner after split ⟨mapping, new, grown, length, exposed⟩ taken
    have here : c = done.length := by
      have position : (List.range child.partitionCount)[done.length]? = some c := by
        rw [split, List.getElem?_append_right (Nat.le_refl _), Nat.sub_self]
        rfl
      obtain ⟨_, same⟩ := List.getElem?_eq_some_iff.mp position
      rw [List.getElem_range] at same
      exact same.symm
    obtain ⟨mapping', partition, one, anchor⟩ := childPartition_maps h mapping taken
    refine ⟨mapping', new ++ [partition], by rw [one, grown, List.append_assoc], by simp [length], ?_⟩
    intro d isExposed inside
    by_cases earlier : d < done.length
    · obtain ⟨node, anchored, p, read, at'⟩ := exposed d isExposed earlier
      exact ⟨node, anchored, p, by rw [List.getElem?_append_left (length ▸ earlier), read], at'⟩
    · rw [List.length_append, List.length_singleton] at inside
      obtain rfl : d = done.length := by omega
      obtain ⟨node, anchored, at'⟩ := anchor (here ▸ isExposed)
      exact ⟨node, here ▸ anchored, partition, by rw [← length, List.getElem?_concat_length], at'⟩

end Children

/-- The classes of two nodes have one partition where they are one class. -/
theorem Numbering.same_iff (h : Numbering n R sequence state) {a b : Nat} {p q : DevicePartitionId}
    (atA : PartitionAt state.1 state.2.1 a p) (atB : PartitionAt state.1 state.2.1 b q) : p = q ↔ EqvGen R a b := by
  obtain ⟨r, rootA, readA⟩ := atA
  obtain ⟨s, rootB, readB⟩ := atB
  rw [← h.classes a b rootA.lt_length rootB.lt_length]
  constructor
  · rintro rfl
    obtain rfl := h.injective r s p readA readB
    exact ⟨r, rootA, rootB⟩
  · rintro ⟨t, rootA', rootB'⟩
    obtain rfl := rootA.unique rootA'
    obtain rfl := rootB.unique rootB'
    exact Option.some.inj (Option.some.inj (readA.symm.trans readB))

/-- Joined nodes have one partition. -/
theorem Numbering.joined (h : Numbering n R sequence state) {a b : Nat} {p : DevicePartitionId} (related : R a b)
    (insideA : a < n) (insideB : b < n) (atA : PartitionAt state.1 state.2.1 a p) : PartitionAt state.1 state.2.1 b p := by
  obtain ⟨r, rootA, readA⟩ := atA
  have same := (h.classes a b (h.sound.parents ▸ insideA) (h.sound.parents ▸ insideB)).mpr (.rel _ _ related)
  obtain ⟨s, rootA', rootB⟩ := same
  obtain rfl := rootA.unique rootA'
  exact ⟨r, rootB, readA⟩

theorem le_foldr_max {l : List Nat} {x : Nat} (member : x ∈ l) : x ≤ l.foldr max 0 := by
  induction l with
  | nil => cases member
  | cons y l ih =>
    rw [List.foldr_cons]
    rcases List.mem_cons.mp member with rfl | later
    · exact Nat.le_max_left _ _
    · exact (ih later).trans (Nat.le_max_right _ _)

/-- What is handed out for the children of the elements. -/
theorem elementPartitions_map {base : List DevicePartitionId} (h : Numbering n (self.ElementsJoin self.elements) base state)
    (inside : ∀ x, self.ElementsUse self.elements x → x < n)
    (partitioned : ∀ element child, self.definitionOf element = some child → child.Partitioned)
    {result : List DevicePartitionId × UnionFind × Nat}
    (run : Derive.fold (self.elementPartitionsOf state.2.1) ([], state.1, state.2.2) self.elements = some (.ok result)) :
    Mapping base state result ∧ result.1.length = self.registry.partitionOffset self.elements ∧
      ∀ (k : Nat) element child, self.elements[k]? = some element → self.definitionOf element = some child →
        ∀ terminal ∈ element.terminals.zip child.terminalPartitions, ∃ partition,
          result.1[self.registry.partitionOffset (self.elements.take k) + terminal.2.index]? = some partition ∧
            PartitionAt state.1 state.2.1 terminal.1.index partition := by
  have folded := Derive.fold_split_ok
    (fun (done : List (Element F)) (loop : List DevicePartitionId × UnionFind × Nat) => Mapping base state loop ∧
      loop.1.length = self.registry.partitionOffset done ∧
      ∀ (k : Nat) element child, done[k]? = some element → self.definitionOf element = some child →
        ∀ terminal ∈ element.terminals.zip child.terminalPartitions, ∃ partition,
          loop.1[self.registry.partitionOffset (done.take k) + terminal.2.index]? = some partition ∧
            PartitionAt state.1 state.2.1 terminal.1.index partition) ?_ ?_ run
  · exact folded
  · refine ⟨⟨⟨n, h.sound⟩, .refl _, Nat.le_refl _, by rw [List.append_nil]; exact h.counted⟩, rfl, ?_⟩
    intro k element child read
    cases read
  · rintro done element rest loop next split ⟨mapping, length, placed⟩ taken
    obtain ⟨mapping', child, new, known, grown, size, exposed⟩ := elementPartitionsOf_maps h mapping taken
    have member : element ∈ self.elements := by
      rw [split]
      exact List.mem_append_right _ List.mem_cons_self
    refine ⟨mapping', by rw [grown, List.length_append, DefinitionRegistry.partitionOffset_append known, length, size], ?_⟩
    intro k other definition read known' terminal isTerminal
    by_cases earlier : k < done.length
    · rw [List.getElem?_append_left earlier] at read
      obtain ⟨partition, there, at'⟩ := placed k other definition read known' terminal isTerminal
      refine ⟨partition, ?_, at'⟩
      rw [List.take_append_of_le_length earlier.le, grown,
        List.getElem?_append_left (List.getElem?_eq_some_iff.mp there).1, there]
    · have last : k = done.length := by
        have := (List.getElem?_eq_some_iff.mp read).1
        rw [List.length_append, List.length_singleton] at this
        omega
      subst last
      rw [List.getElem?_concat_length] at read
      obtain rfl := Option.some.inj read
      obtain rfl := Option.some.inj (known.symm.trans known')
      have within : terminal.2 ∈ child.terminalPartitions := (List.of_mem_zip isTerminal).2
      have isExposed : terminal.2.index < child.exposedPartitionCount :=
        le_foldr_max (List.mem_map.mpr ⟨_, within, rfl⟩)
      obtain ⟨first, isFirst, same, partition, there, at'⟩ :=
        exposed _ isExposed ((partitioned element child known).inRange _ within)
      have joined : self.ElementsJoin self.elements first.1.index terminal.1.index :=
        ⟨element, member, child, known, first, isFirst, terminal, isTerminal, Id.ext' same, rfl, rfl⟩
      refine ⟨partition, ?_, h.joined joined (inside _ joined.uses.1) (inside _ joined.uses.2) at'⟩
      rw [List.take_left', grown, List.getElem?_append_right (by omega), length, Nat.add_sub_cancel_left, there]
      rfl

/-- The last loop reads the partition of every node. -/
theorem nodePartitions_read {roots : List (Option DevicePartitionId)} {first : UnionFind} (sound : UnionFind.Sound n first)
    {nodes : List DevicePartitionId} {last : UnionFind}
    (run : (List.range n).foldlM (fun (nodePartitions, (unionFind : UnionFind)) node => do
      let (root, unionFind) ← unionFind.find node
      let partition ← roots[root]?.join
      some (nodePartitions ++ [partition], unionFind)) (([] : List DevicePartitionId), first) = some (nodes, last)) :
    nodes.length = n ∧ ∀ x < n, ∃ partition, nodes[x]? = some partition ∧ PartitionAt first roots x partition := by
  have loop : Returns True ((List.range n).foldlM (fun (nodePartitions, (unionFind : UnionFind)) node => do
      let (root, unionFind) ← unionFind.find node
      let partition ← roots[root]?.join
      some (nodePartitions ++ [partition], unionFind)) (([] : List DevicePartitionId), first))
      fun (result : List DevicePartitionId × UnionFind) => UnionFind.Sound n result.2 ∧ UnionFind.SameRoots first result.2 ∧
        result.1.length = (List.range n).length ∧
        ∀ x < (List.range n).length, ∃ partition, result.1[x]? = some partition ∧ PartitionAt first roots x partition := by
    refine Returns.foldlM (fun (done : List Nat) (loop : List DevicePartitionId × UnionFind) =>
      UnionFind.Sound n loop.2 ∧ UnionFind.SameRoots first loop.2 ∧ loop.1.length = done.length ∧
        ∀ x < done.length, ∃ partition, loop.1[x]? = some partition ∧ PartitionAt first roots x partition)
      ⟨sound, .refl _, rfl, fun x impossible => absurd impossible (Nat.not_lt_zero _)⟩ ?_
    rintro done node rest ⟨partitions, unionFind⟩ split ⟨sound, same, length, read⟩
    have position : (List.range n)[done.length]? = some node := by
      rw [split, List.getElem?_append_right (Nat.le_refl _), Nat.sub_self]
      rfl
    obtain ⟨inside, here⟩ := List.getElem?_eq_some_iff.mp position
    rw [List.getElem_range] at here
    rw [List.length_range, here] at inside
    obtain ⟨root, after, finds, isRoot, sound', same'⟩ := UnionFind.find_spec sound inside
    refine Returns.bind_some finds ?_
    dsimp only
    cases there : roots[root]?.join with
    | none => exact trivial
    | some partition =>
      have at' : PartitionAt first roots node partition :=
        ⟨root, (same.roots _ _).mp isRoot, Option.join_eq_some_iff.mp there⟩
      refine ⟨sound', same.trans same', by simp [length], fun x bound => ?_⟩
      by_cases earlier : x < done.length
      · obtain ⟨q, read', at''⟩ := read x earlier
        exact ⟨q, by rw [List.getElem?_append_left (length ▸ earlier), read'], at''⟩
      · rw [List.length_append, List.length_singleton] at bound
        obtain rfl : x = done.length := by omega
        exact ⟨partition, by rw [← length, List.getElem?_concat_length], here ▸ at'⟩
  rw [run] at loop
  obtain ⟨-, -, length, read⟩ := loop
  rw [List.length_range] at length read
  exact ⟨length, read⟩

end DeviceDefinitionBuilder

end Hynergy
