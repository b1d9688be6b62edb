import Hynergy.Model.Building
import Hynergy.Model.CallRules
import Hynergy.Model.Flattening

/-!
# The partition layout of a built definition

Two nodes of a built definition have one partition where the flattened elements connect them.
-/

namespace Hynergy

open Lib Relation

variable {F : Type}

namespace DeviceDefinitionBuilder

open DevicePartitionLayout (canonicalExposedPartitionCount canonical_mem)

variable {self : DeviceDefinitionBuilder F} {layout : DevicePartitionLayout} {nodePartitions : List DevicePartitionId}

/-- The layout of the elements' classes: every node is in the partition of its class, the partitions are
numbered by first occurrence, and a child's partitions are those of its terminals. -/
structure LaidOut (builder : DeviceDefinitionBuilder F) (layout : DevicePartitionLayout)
    (nodePartitions : List DevicePartitionId) : Prop where
  length : nodePartitions.length = builder.nodeCount
  known : ∀ element ∈ builder.elements, ∃ child, builder.definitionOf element = some child
  connected : ∀ (a b : Nat) (p q : DevicePartitionId), nodePartitions[a]? = some p → nodePartitions[b]? = some q →
    (p = q ↔ EqvGen (builder.ElementsJoin builder.elements) a b)
  terminalsLength : layout.terminalPartitions.length = builder.terminals.length
  terminals : ∀ (i : Nat) terminal, builder.terminals[i]? = some terminal → terminal.index < builder.nodeCount ∧
    layout.terminalPartitions[i]? = nodePartitions[terminal.index]?
  numbered : canonicalExposedPartitionCount
    (layout.terminalPartitions ++ nodePartitions ++ layout.elementPartitions) = some layout.partitionCount
  inhabited : ∀ index < layout.partitionCount,
    ∃ partition ∈ layout.terminalPartitions ++ layout.elementPartitions, partition.index = index
  elementsLength : layout.elementPartitions.length = builder.registry.partitionOffset builder.elements
  children : ∀ (k : Nat) element child, builder.elements[k]? = some element → builder.definitionOf element = some child →
    ∀ terminal ∈ element.terminals.zip child.terminalPartitions, terminal.1.index < builder.nodeCount ∧
      layout.elementPartitions[builder.registry.partitionOffset (builder.elements.take k) + terminal.2.index]? =
        nodePartitions[terminal.1.index]?

theorem unusedNode_none {referenced : List Bool} (h : self.unusedNode referenced = none) {x : Nat}
    (inside : x < self.nodeCount) : (∃ terminal ∈ self.terminals, terminal.index = x) ∨ referenced[x]? = some true := by
  have unused := List.find?_eq_none.mp h x (List.mem_range.mpr inside)
  by_cases exposed : x ∈ self.terminals.map (·.index)
  · exact Or.inl (List.mem_map.mp exposed)
  · right
    cases read : referenced[x]? with
    | none => simp [exposed, read] at unused
    | some flag => simpa [exposed, read] using unused

theorem derivePartitionLayout_laidOut (partitioned : ∀ element child, self.definitionOf element = some child → child.Partitioned)
    (run : self.derivePartitionLayout = some (.ok (layout, nodePartitions))) : self.LaidOut layout nodePartitions := by
  unfold derivePartitionLayout at run
  dsimp only at run
  split at run
  · cases run
  rename_i unionFind referenced folded
  split at run
  · cases run
  rename_i inRange
  split at run
  · split at run <;> cases run
  rename_i noUnused
  obtain ⟨⟨partitions, first⟩, terminals, run⟩ := Derive.bind_ok.mp run
  obtain ⟨second, internal, run⟩ := Derive.bind_ok.mp run
  obtain ⟨total, -, run⟩ := Derive.bind_ok.mp run
  obtain ⟨⟨elements, third, next⟩, children, run⟩ := Derive.bind_ok.mp run
  dsimp only at internal children run
  split at run
  · cases run
  rename_i nodes last nodesRead
  simp only [Option.some.injEq, Except.ok.injEq, Prod.mk.injEq] at run
  obtain ⟨rfl, rfl⟩ := run
  have joined := joinElements folded
  have inRange : ∀ terminal ∈ self.terminals, terminal.index < self.nodeCount := not_not.mp inRange
  -- nothing is numbered before the terminals
  have start : Numbering self.nodeCount (self.ElementsJoin self.elements) []
      (unionFind, List.replicate self.nodeCount none, 0) := by
    have nothing : ∀ (r : Nat) (p : DevicePartitionId), (List.replicate self.nodeCount none)[r]? ≠ some (some p) := by
      intro r p read
      rw [List.getElem?_replicate] at read
      split at read <;> cases read
    exact ⟨joined.sound, joined.classes, List.length_replicate, fun r s p read => (nothing r p read).elim,
      fun r p read => (nothing r p read).elim, rfl⟩
  obtain ⟨numbered, length, placed⟩ := deriveTerminalPartitions_numbers start inRange terminals
  have used : ∀ x < self.nodeCount, referenced[x]? = some true ∨
      ∃ partition, PartitionAt first.1 first.2.1 x partition := by
    intro x inside
    rcases unusedNode_none noUnused inside with ⟨terminal, member, rfl⟩ | yes
    · obtain ⟨i, read⟩ := List.mem_iff_getElem?.mp member
      obtain ⟨partition, -, at'⟩ := placed i terminal read
      exact Or.inr ⟨partition, at'⟩
    · exact Or.inl yes
  obtain ⟨numberedNodes, sameLength, numbered', keeps, nodeAt⟩ :=
    deriveInternalPartitions_numbers numbered joined.length used internal
  obtain ⟨mapping, size, mapped⟩ := elementPartitions_map numbered' joined.inside partitioned children
  obtain ⟨unions, sound⟩ := mapping.sound
  have sameSize : unions = self.nodeCount := by
    rw [← sound.parents, ← numbered'.sound.parents]
    exact mapping.same.length
  subst sameSize
  obtain ⟨nodesLength, nodeAt'⟩ := nodePartitions_read sound nodesRead
  have at' : ∀ x < self.nodeCount, ∃ partition, nodes[x]? = some partition ∧
      PartitionAt second.1 second.2.1 x partition := by
    intro x inside
    obtain ⟨partition, read, at'⟩ := nodeAt' x inside
    exact ⟨partition, read, (PartitionAt.roots mapping.same).mp at'⟩
  have placedAt : ∀ {x : Nat} {p : DevicePartitionId}, nodes[x]? = some p → PartitionAt second.1 second.2.1 x p := by
    intro x p read
    obtain ⟨q, read', at''⟩ := at' x (nodesLength ▸ (List.getElem?_eq_some_iff.mp read).1)
    obtain rfl := Option.some.inj (read.symm.trans read')
    exact at''
  have reads : ∀ {x : Nat} {p : DevicePartitionId}, x < self.nodeCount → PartitionAt second.1 second.2.1 x p →
      some p = nodes[x]? := by
    intro x p inside here
    obtain ⟨q, read, at''⟩ := at' x inside
    rw [read, here.unique at'']
  have sameNodes : numberedNodes = nodes := by
    refine List.ext_getElem? fun x => ?_
    by_cases inside : x < self.nodeCount
    · obtain ⟨p, read, here⟩ := nodeAt x inside
      rw [read, reads inside here]
    · rw [List.getElem?_eq_none (by omega), List.getElem?_eq_none (by omega)]
  subst sameNodes
  have terminalsRead : ∀ (i : Nat) terminal, self.terminals[i]? = some terminal →
      terminal.index < self.nodeCount ∧ partitions[i]? = numberedNodes[terminal.index]? := by
    intro i terminal read
    have inside := inRange terminal (List.mem_iff_getElem?.mpr ⟨i, read⟩)
    obtain ⟨p, isP, here⟩ := placed i terminal read
    exact ⟨inside, by rw [isP, reads inside (keeps _ _ here)]⟩
  have childrenRead : ∀ (k : Nat) element child, self.elements[k]? = some element → self.definitionOf element = some child →
      ∀ terminal ∈ element.terminals.zip child.terminalPartitions, terminal.1.index < self.nodeCount ∧
        elements[self.registry.partitionOffset (self.elements.take k) + terminal.2.index]? = numberedNodes[terminal.1.index]? := by
    intro k element child read known terminal isTerminal
    have inside := joined.inside terminal.1.index
      ⟨element, List.mem_iff_getElem?.mpr ⟨k, read⟩, child, known, terminal, isTerminal, rfl⟩
    obtain ⟨p, there, here⟩ := mapped k element child read known terminal isTerminal
    exact ⟨inside, by rw [there, reads inside here]⟩
  refine ⟨nodesLength, joined.known, ?_, length, terminalsRead, mapping.counted, ?_, size, childrenRead⟩
  · intro a b p q atA atB
    exact numbered'.same_iff (placedAt atA) (placedAt atB)
  · intro index below
    obtain ⟨partition, member, rfl⟩ := (canonical_mem mapping.counted index).mp below
    refine ⟨partition, ?_, rfl⟩
    rcases List.mem_append.mp member with member | isElement
    · rcases List.mem_append.mp member with isTerminal | isNode
      · exact List.mem_append_left _ isTerminal
      · obtain ⟨x, read⟩ := List.mem_iff_getElem?.mp isNode
        have inside : x < self.nodeCount := nodesLength ▸ (List.getElem?_eq_some_iff.mp read).1
        rcases unusedNode_none noUnused inside with ⟨terminal, member, rfl⟩ | yes
        · obtain ⟨i, isI⟩ := List.mem_iff_getElem?.mp member
          refine List.mem_append_left _ (List.mem_iff_getElem?.mpr ⟨i, ?_⟩)
          exact (terminalsRead i terminal isI).2.trans read
        · obtain ⟨-, element, member, child, known, terminal, isTerminal, rfl⟩ := (joined.referenced x).mp yes
          obtain ⟨k, isK⟩ := List.mem_iff_getElem?.mp member
          exact List.mem_append_right _ (List.mem_iff_getElem?.mpr
            ⟨_, (childrenRead k element child isK known terminal isTerminal).2.trans read⟩)
    · exact List.mem_append_right _ isElement

/-! ### Builders keep their registry -/

section Registry

variable [F64 F] {base : DefinitionRegistry F}

open Call (Preserves)

theorem validateParameter_registry (definitionId : DefinitionId) (parameterIndex : Nat) (value : ValueRef F)
    (constraint : ParameterConstraints F) :
    Preserves (·.registry = base) (validateParameter definitionId parameterIndex value constraint) := by
  refine .get_bind fun self _ => ?_
  cases value with
  | literal literal => exact .ofExcept _ _
  | parameter parameter => exact (Preserves.okOr _ _).bind fun _ => .rejectIf _ _

theorem validateElement_registry (element : Element F) : Preserves (·.registry = base) (validateElement element) := by
  refine .get_bind fun self _ => (Preserves.okOr _ _).bind fun definition => (Preserves.rejectIf _ _).bind fun _ =>
    (Preserves.rejectIf _ _).bind fun _ => (Preserves.forM fun _ => .rejectIf _ _).bind fun _ =>
    (Preserves.forM fun _ => validateParameter_registry _ _ _ _).bind fun _ => ?_
  split
  · exact .pure _
  · split
    · exact .pure _
    · exact .ofExcept _ _

omit [F64 F] in
theorem allocateNode_registry : Preserves (·.registry = base) (allocateNode : Build F NodeId) := by
  refine .get_bind fun self same => ?_
  split
  · exact .throw _
  · exact (Preserves.rejectIf _ _).bind fun _ => .bind (.set same) fun _ => .pure _

omit [F64 F] in
theorem pushObserver_registry (observer : PendingDefinitionObserver) :
    Preserves (·.registry = base) (pushObserver observer : Build F DefinitionObserverId) :=
  .get_bind fun _ same => (Preserves.okOr _ _).bind fun _ => .bind (.set same) fun _ => .pure _

omit [F64 F] in
theorem validateObserverNode_registry (node : NodeId) :
    Preserves (·.registry = base) (validateObserverNode node : Build F Unit) :=
  .get_bind fun _ _ => .rejectIf _ _

theorem Operation.apply_registry (operation : Operation F) : Preserves (·.registry = base) operation.apply := by
  cases operation with
  | addNode => exact allocateNode_registry.bind fun _ => .pure _
  | addTerminal =>
    refine .bind ?_ fun _ => .pure _
    exact allocateNode_registry.bind fun _ => .bind (.modify fun _ same => same) fun _ => .pure _
  | addParameter parameter =>
    refine .bind ?_ fun _ => .pure _
    exact .get_bind fun _ same => (Preserves.okOr _ _).bind fun _ => .bind (.set same) fun _ => .pure _
  | addElement element =>
    refine .bind ?_ fun _ => .pure _
    exact (validateElement_registry element).bind fun _ => .get_bind fun _ same =>
      (Preserves.okOr _ _).bind fun _ => .bind (.set same) fun _ => .pure _
  | addVoltageObserver positive negative =>
    refine .bind ?_ fun _ => .pure _
    exact (validateObserverNode_registry positive).bind fun _ => (validateObserverNode_registry negative).bind fun _ =>
      pushObserver_registry _
  | addChildObserver element observer =>
    refine .bind ?_ fun _ => .pure _
    exact .get_bind fun _ _ => (Preserves.okOr _ _).bind fun _ => (Preserves.expect _).bind fun _ =>
      (Preserves.okOr _ _).bind fun _ => pushObserver_registry _

theorem Reached.registry_eq {builder : DeviceDefinitionBuilder F} (reached : Reached base builder) :
    builder.registry = base := by
  induction reached with
  | new => rfl
  | call _ operation leaves ih => exact operation.apply_registry.leaves ih leaves

end Registry

end DeviceDefinitionBuilder

/-! ### Flattened definitions -/

namespace DefinitionRegistry

variable {registry next : DefinitionRegistry F} {definition : DeviceDefinition F} {x y : Nat}

/-- The elements of a definition are registered. -/
def KnowsElements (registry : DefinitionRegistry F) (definition : DeviceDefinition F) : Prop :=
  ∀ circuit, definition.body = .composite circuit →
    ∀ element ∈ circuit.elements, ∃ child, registry.get element.definition = some child

/-- The layout of a definition is that of its flattened elements. -/
structure Flattens (registry : DefinitionRegistry F) (definition : DeviceDefinition F) : Prop where
  known : registry.KnowsElements definition
  terminals : ∀ (i j : Nat) (a b : NodeId) (p q : DevicePartitionId), definition.terminals[i]? = some a →
    definition.terminals[j]? = some b → definition.terminalPartitions[i]? = some p →
    definition.terminalPartitions[j]? = some q → (p = q ↔ Flat registry definition a.index b.index)
  occupied : ∀ index < definition.partitionCount, Occupied registry definition index

theorem Flat.extend (grown : next.Extends registry) (h : Flat registry definition x y) : Flat next definition x y := by
  induction h with
  | primitive body left right leftIn rightIn => exact .primitive body left right leftIn rightIn
  | element body member known left right innerLeft innerRight _ ih =>
    exact .element body member (grown _ _ known) left right innerLeft innerRight ih
  | refl node => exact .refl node
  | symm _ ih => exact .symm ih
  | trans _ _ ih ih' => exact .trans ih ih'

/-- Definitions added later do not change what is connected. -/
theorem Flat.restrict (grown : next.Extends registry)
    (closed : ∀ id definition, registry.get id = some definition → registry.KnowsElements definition)
    (known : registry.KnowsElements definition) (h : Flat next definition x y) : Flat registry definition x y := by
  induction h with
  | primitive body left right leftIn rightIn => exact .primitive body left right leftIn rightIn
  | element body member found left right innerLeft innerRight _ ih =>
    obtain ⟨child, there⟩ := known _ body _ member
    obtain rfl := Option.some.inj ((grown _ _ there).symm.trans found)
    exact .element body member there left right innerLeft innerRight (ih (closed _ _ there))
  | refl node => exact .refl node
  | symm _ ih => exact .symm (ih known)
  | trans _ _ ih ih' => exact .trans (ih known) (ih' known)

theorem partitionOffset_extend (grown : next.Extends registry) {elements : List (Element F)}
    (known : ∀ element ∈ elements, ∃ child, registry.get element.definition = some child) :
    next.partitionOffset elements = registry.partitionOffset elements := by
  induction elements using List.reverseRecOn with
  | nil => rfl
  | append_singleton elements element ih =>
    obtain ⟨child, there⟩ := known element (List.mem_append_right _ (List.mem_singleton_self _))
    rw [partitionOffset_append there, partitionOffset_append (grown _ _ there),
      ih fun other member => known other (List.mem_append_left _ member)]

theorem Occupied.extend (grown : next.Extends registry)
    (closed : ∀ id definition, registry.get id = some definition → registry.KnowsElements definition)
    (known : registry.KnowsElements definition) {index : Nat} (h : Occupied registry definition index) :
    Occupied next definition index := by
  induction h with
  | terminal member => exact .terminal member
  | element body read found _ bound mapped ih =>
    refine .element body read (grown _ _ found) (ih (closed _ _ found)) bound ?_
    rw [partitionOffset_extend grown fun element member => known _ body element (List.mem_of_mem_take member)]
    exact mapped

theorem Flattens.extend (h : registry.Flattens definition) (grown : next.Extends registry)
    (closed : ∀ id definition, registry.get id = some definition → registry.KnowsElements definition) :
    next.Flattens definition := by
  refine ⟨fun circuit body element member => ?_, fun i j a b p q atI atJ pAt qAt => ?_, fun index below => ?_⟩
  · obtain ⟨child, there⟩ := h.known circuit body element member
    exact ⟨child, grown _ _ there⟩
  · rw [h.terminals i j a b p q atI atJ pAt qAt]
    exact ⟨Flat.extend grown, Flat.restrict grown closed h.known⟩
  · exact Occupied.extend grown closed h.known (h.occupied index below)

/-- A partition of the children is one of some child's. -/
theorem offset_split {elements : List (Element F)} (known : ∀ element ∈ elements, ∃ child, registry.get element.definition = some child)
    {index : Nat} (below : index < registry.partitionOffset elements) :
    ∃ (k inner : Nat) (element : Element F) (child : DeviceDefinition F), elements[k]? = some element ∧
      registry.get element.definition = some child ∧ inner < child.partitionCount ∧
      index = registry.partitionOffset (elements.take k) + inner := by
  induction elements using List.reverseRecOn with
  | nil => exact absurd below (Nat.not_lt_zero _)
  | append_singleton elements element ih =>
    obtain ⟨child, there⟩ := known element (List.mem_append_right _ (List.mem_singleton_self _))
    rw [partitionOffset_append there] at below
    by_cases earlier : index < registry.partitionOffset elements
    · obtain ⟨k, inner, other, definition, read, found, bound, same⟩ :=
        ih (fun other member => known other (List.mem_append_left _ member)) earlier
      have inside := (List.getElem?_eq_some_iff.mp read).1
      refine ⟨k, inner, other, definition, by rw [List.getElem?_append_left inside, read], found, bound, ?_⟩
      rw [List.take_append_of_le_length inside.le, same]
    · refine ⟨elements.length, index - registry.partitionOffset elements, element, child, List.getElem?_concat_length,
        there, by omega, ?_⟩
      rw [List.take_left']
      omega
      rfl

end DefinitionRegistry

namespace PrimitiveElementKind

variable [F64 F]

theorem terminalLayout_nodup (self : PrimitiveElementKind) : (self.terminalLayout.1.map (·.index)).Nodup := by
  cases self <;> decide

theorem terminalLayout_occupied (self : PrimitiveElementKind) :
    ∀ index < self.partitionLayout.2.partitionCount,
      ∃ partition ∈ self.partitionLayout.2.terminalPartitions, partition.index = index := by
  cases self <;> decide

/-- A primitive joins the terminals of each of its partitions, and nothing else. -/
theorem definition_flattens (self : PrimitiveElementKind) {registry : DefinitionRegistry F} :
    registry.Flattens (self.definition : DeviceDefinition F) := by
  refine ⟨fun circuit body => (by cases body), fun i j a b p q atI atJ pAt qAt => ⟨?_, fun h => ?_⟩, fun index below => ?_⟩
  · rintro rfl
    exact .primitive rfl atI atJ pAt qAt
  · -- the terminals are distinct, so the joined pairs are an equivalence already
    have distinct := self.terminalLayout_nodup
    have unique : ∀ {i j : Nat} {a b : NodeId}, (self.definition : DeviceDefinition F).terminals[i]? = some a →
        (self.definition : DeviceDefinition F).terminals[j]? = some b → a.index = b.index → i = j := by
      intro i j a b atI atJ same
      have inside := (List.getElem?_eq_some_iff.mp atI).1
      refine (List.getElem?_inj (by rwa [List.length_map]) distinct).mp ?_
      rw [List.getElem?_map, List.getElem?_map]
      exact (congrArg (Option.map _) atI).trans ((congrArg some same).trans (congrArg (Option.map _) atJ).symm)
    have joined : ∀ {definition : DeviceDefinition F} {x y : Nat}, Flat registry definition x y → definition = self.definition →
        x = y ∨ ∃ (i j : Nat) (a b : NodeId) (p : DevicePartitionId), definition.terminals[i]? = some a ∧ definition.terminals[j]? = some b ∧
          definition.terminalPartitions[i]? = some p ∧ definition.terminalPartitions[j]? = some p ∧
          a.index = x ∧ b.index = y := by
      intro definition x y h
      induction h with
      | primitive body left right leftIn rightIn =>
        exact fun _ => Or.inr ⟨_, _, _, _, _, left, right, leftIn, rightIn, rfl, rfl⟩
      | element body =>
        rintro rfl
        cases body
      | refl => exact fun _ => Or.inl rfl
      | symm _ ih =>
        intro here
        rcases ih here with rfl | ⟨i, j, a, b, p, atI, atJ, pAt, qAt, rfl, rfl⟩
        · exact Or.inl rfl
        · exact Or.inr ⟨j, i, b, a, p, atJ, atI, qAt, pAt, rfl, rfl⟩
      | trans _ _ ih ih' =>
        intro here
        rcases ih here with rfl | ⟨i, j, a, b, p, atI, atJ, pAt, qAt, rfl, rfl⟩
        · exact ih' here
        · rcases ih' here with rfl | ⟨k, l, c, d, q, atK, atL, pAt', qAt', same, rfl⟩
          · exact Or.inr ⟨i, j, a, b, p, atI, atJ, pAt, qAt, rfl, rfl⟩
          · subst here
            obtain rfl := unique atK atJ same
            obtain rfl := Option.some.inj (qAt.symm.trans pAt')
            exact Or.inr ⟨i, l, a, d, p, atI, atL, pAt, qAt', rfl, rfl⟩
    rcases joined h rfl with same | ⟨k, l, c, d, r, atK, atL, rAt, sAt, sameA, sameB⟩
    · obtain rfl := unique atI atJ same
      exact Option.some.inj (pAt.symm.trans qAt)
    · obtain rfl := unique atK atI sameA
      obtain rfl := unique atL atJ sameB
      exact (Option.some.inj (pAt.symm.trans rAt)).trans (Option.some.inj (sAt.symm.trans qAt))
  · obtain ⟨partition, member, rfl⟩ := self.terminalLayout_occupied index below
    exact .terminal member

end PrimitiveElementKind

namespace DeviceDefinitionBuilder

open DevicePartitionLayout (canonicalExposedPartitionCount)

variable {self : DeviceDefinitionBuilder F} {definition : DeviceDefinition F} {nodePartitions : List DevicePartitionId}

/-- What the elements join by the layouts of their definitions is what they join when flattened. -/
theorem flat_iff_joined (flattens : ∀ id child, self.registry.get id = some child → self.registry.Flattens child)
    (partitioned : self.registry.Partitioned) (body : definition.body = .composite ⟨self.nodeCount, self.elements⟩) (x y : Nat) :
    Flat self.registry definition x y ↔ EqvGen (self.ElementsJoin self.elements) x y := by
  constructor
  · intro h
    induction h with
    | primitive isPrimitive => cases body.symm.trans isPrimitive
    | @element definition child circuit element i j a b m n isComposite member found left right innerLeft innerRight inside =>
      obtain rfl := DeviceBody.composite.inj (body.symm.trans isComposite)
      have length := (partitioned _ _ found).length
      have insideI : i < child.terminalPartitions.length := length ▸ (List.getElem?_eq_some_iff.mp innerLeft).1
      have insideJ : j < child.terminalPartitions.length := length ▸ (List.getElem?_eq_some_iff.mp innerRight).1
      have pAt := List.getElem?_eq_getElem insideI
      have qAt := List.getElem?_eq_getElem insideJ
      have same := ((flattens _ _ found).terminals i j m n _ _ innerLeft innerRight pAt qAt).mpr inside
      refine .rel _ _ ⟨element, member, child, found, (a, _), List.mem_iff_getElem?.mpr ⟨i, ?_⟩,
        (b, _), List.mem_iff_getElem?.mpr ⟨j, ?_⟩, same, rfl, rfl⟩
      · exact List.getElem?_zip_eq_some.mpr ⟨left, pAt⟩
      · exact List.getElem?_zip_eq_some.mpr ⟨right, qAt⟩
    | refl => exact .refl _
    | symm _ ih => exact .symm _ _ (ih body)
    | trans _ _ ih ih' => exact .trans _ _ _ (ih body) (ih' body)
  · intro h
    induction h with
    | rel x y joined =>
      obtain ⟨element, member, child, found, ⟨a, p⟩, isFirst, ⟨b, q⟩, isSecond, same, rfl, rfl⟩ := joined
      obtain ⟨i, atI⟩ := List.mem_iff_getElem?.mp isFirst
      obtain ⟨j, atJ⟩ := List.mem_iff_getElem?.mp isSecond
      obtain ⟨left, pAt⟩ := List.getElem?_zip_eq_some.mp atI
      obtain ⟨right, qAt⟩ := List.getElem?_zip_eq_some.mp atJ
      have length := (partitioned _ _ found).length
      have insideI : i < child.terminals.length := length ▸ (List.getElem?_eq_some_iff.mp pAt).1
      have insideJ : j < child.terminals.length := length ▸ (List.getElem?_eq_some_iff.mp qAt).1
      have innerLeft := List.getElem?_eq_getElem insideI
      have innerRight := List.getElem?_eq_getElem insideJ
      have inside := ((flattens _ _ found).terminals i j _ _ p q innerLeft innerRight pAt qAt).mp same
      exact .element body member found left right innerLeft innerRight inside
    | refl => exact .refl _
    | symm _ _ _ ih => exact .symm ih
    | trans _ _ _ _ _ ih ih' => exact .trans ih ih'

/-- The layout of a built definition is that of its flattened elements. -/
theorem LaidOut.flattens (laidOut : self.LaidOut definition.partitionLayout nodePartitions)
    (children : ∀ id child, self.registry.get id = some child → self.registry.Flattens child)
    (partitioned : self.registry.Partitioned) (body : definition.body = .composite ⟨self.nodeCount, self.elements⟩)
    (terminals : definition.terminals = self.terminals) : self.registry.Flattens definition := by
  refine ⟨fun circuit isComposite => ?_, fun i j a b p q atI atJ pAt qAt => ?_, fun index below => ?_⟩
  · obtain rfl := DeviceBody.composite.inj (body.symm.trans isComposite)
    exact laidOut.known
  · rw [terminals] at atI atJ
    obtain ⟨-, readA⟩ := laidOut.terminals i a atI
    obtain ⟨-, readB⟩ := laidOut.terminals j b atJ
    rw [laidOut.connected a.index b.index p q (readA.symm.trans pAt) (readB.symm.trans qAt)]
    exact (flat_iff_joined children partitioned body a.index b.index).symm
  · obtain ⟨partition, member, rfl⟩ := laidOut.inhabited index below
    rcases List.mem_append.mp member with isTerminal | isElement
    · exact .terminal isTerminal
    · obtain ⟨position, read⟩ := List.mem_iff_getElem?.mp isElement
      have inside := (List.getElem?_eq_some_iff.mp read).1
      rw [laidOut.elementsLength] at inside
      obtain ⟨k, inner, element, child, isElement, found, bound, rfl⟩ := DefinitionRegistry.offset_split laidOut.known inside
      exact .element body isElement found ((children _ _ found).occupied inner bound) bound read

end DeviceDefinitionBuilder

theorem DefinitionRegistry.Reached.flattens [F64 F] {registry : DefinitionRegistry F} (reached : registry.Reached) :
    ∀ id definition, registry.get id = some definition → registry.Flattens definition := by
  induction reached with
  | new =>
    intro id definition found
    obtain ⟨kind, rfl⟩ := get_new found
    exact kind.definition_flattens
  | @register self base next builder definition id reached built extends' calls build registered ih ih' =>
    have grown := register_extends registered
    intro other found there
    rcases get_registered registered there with earlier | ⟨-, rfl⟩
    · exact (ih other found earlier).extend grown fun id definition found => (ih id definition found).known
    · obtain ⟨nodePartitions, -, laidOut, -, body, terminals, -⟩ := DeviceDefinitionBuilder.buildDefinition_ok build
      obtain rfl := calls.registry_eq
      have laidOut := DeviceDefinitionBuilder.derivePartitionLayout_laidOut
        (fun element child found => built.partitioned _ _ found) laidOut
      exact (laidOut.flattens ih' built.partitioned body terminals).extend (grown.trans extends')
        fun id definition found => (ih' id definition found).known

/-- The partition layout that the builder derives: two nodes are in one partition exactly if the
flattened elements connect them, partitions are numbered by first occurrence and each holds something,
and a terminal's partition and the partitions of the children are those of their nodes. -/
theorem DeviceDefinitionBuilder.buildDefinition_partitions [F64 F] {base : DefinitionRegistry F} (reached : base.Reached)
    {builder : DeviceDefinitionBuilder F} (calls : builder.Reached base) {definition : DeviceDefinition F}
    (build : builder.buildDefinition = some (.ok definition)) :
    ∃ nodePartitions : List DevicePartitionId,
      builder.derivePartitionLayout = some (.ok (definition.partitionLayout, nodePartitions)) ∧
      nodePartitions.length = builder.nodeCount ∧
      (∀ (a b : Nat) (p q : DevicePartitionId), nodePartitions[a]? = some p → nodePartitions[b]? = some q →
        (p = q ↔ Flat base definition a b)) ∧
      (definition.terminalPartitions.length = definition.terminals.length ∧
        ∀ (i : Nat) terminal, definition.terminals[i]? = some terminal → terminal.index < builder.nodeCount ∧
          definition.terminalPartitions[i]? = nodePartitions[terminal.index]?) ∧
      (DevicePartitionLayout.canonicalExposedPartitionCount
          (definition.terminalPartitions ++ nodePartitions ++ definition.elementPartitions) = some definition.partitionCount ∧
        ∀ index, index < definition.partitionCount ↔
          ∃ partition ∈ definition.terminalPartitions ++ nodePartitions ++ definition.elementPartitions,
            partition.index = index) ∧
      (∀ index < definition.partitionCount, Occupied base definition index) ∧
      definition.elementPartitions.length = base.partitionOffset builder.elements ∧
      ∀ (k i : Nat) element child node partition, builder.elements[k]? = some element →
        base.get element.definition = some child → element.terminals[i]? = some node →
        child.terminalPartitions[i]? = some partition → node.index < builder.nodeCount ∧
          definition.elementPartitions[base.partitionOffset (builder.elements.take k) + partition.index]? =
            nodePartitions[node.index]? := by
  obtain ⟨nodePartitions, -, run, -, body, terminals, -⟩ := buildDefinition_ok build
  obtain rfl := calls.registry_eq
  have laidOut := derivePartitionLayout_laidOut (fun element child found => reached.partitioned _ _ found) run
  refine ⟨nodePartitions, run, laidOut.length, fun a b p q atA atB => ?_, ⟨?_, fun i terminal read => ?_⟩,
    ⟨laidOut.numbered, DevicePartitionLayout.canonical_mem laidOut.numbered⟩,
    (laidOut.flattens reached.flattens reached.partitioned body terminals).occupied, laidOut.elementsLength, ?_⟩
  · rw [laidOut.connected a b p q atA atB]
    exact (flat_iff_joined reached.flattens reached.partitioned body a b).symm
  · exact terminals ▸ laidOut.terminalsLength
  · exact laidOut.terminals i terminal (terminals ▸ read)
  · intro k i element child node partition read found atI partitionAt
    exact laidOut.children k element child read found (node, partition)
      (List.mem_iff_getElem?.mpr ⟨i, List.getElem?_zip_eq_some.mpr ⟨atI, partitionAt⟩⟩)

/-- A delay whose two partitions share a node. -/
def DeviceDefinitionBuilder.feedbackDelay : DeviceDefinitionBuilder Float where
  registry := .new
  terminals := [⟨0, by decide⟩, ⟨2, by decide⟩]
  nodeCount := 3
  elements := [⟨PrimitiveElementKind.tickDelay.definitionId,
    [⟨0, by decide⟩, ⟨1, by decide⟩, ⟨1, by decide⟩, ⟨2, by decide⟩], []⟩]

/-- The ends of the delay are in one partition. -/
theorem DeviceDefinitionBuilder.buildDefinition_partitions_delay :
    ∃ definition : DeviceDefinition Float, definition.partitionCount = 1 ∧ Flat .new definition 0 2 := by
  have calls : Reached .new feedbackDelay :=
    .call (.call (.call (.call .new .addTerminal (Or.inl ⟨(), rfl⟩)) .addNode (Or.inl ⟨(), rfl⟩)) .addTerminal
      (Or.inl ⟨(), rfl⟩)) (.addElement ⟨PrimitiveElementKind.tickDelay.definitionId, [⟨0, by decide⟩, ⟨1, by decide⟩,
        ⟨1, by decide⟩, ⟨2, by decide⟩], []⟩) (Or.inl ⟨(), rfl⟩)
  have laidOut : feedbackDelay.derivePartitionLayout =
      some (.ok (_, [⟨0, by decide⟩, ⟨0, by decide⟩, ⟨0, by decide⟩])) := rfl
  obtain ⟨nodePartitions, run, -, connected, -⟩ := buildDefinition_partitions .new calls rfl
  obtain ⟨-, rfl⟩ := Prod.mk.inj (Except.ok.inj (Option.some.inj (run.symm.trans laidOut)))
  exact ⟨_, rfl, (connected 0 2 _ _ rfl rfl).mp rfl⟩

end Hynergy
