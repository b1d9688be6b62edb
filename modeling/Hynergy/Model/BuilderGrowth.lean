import Hynergy.Model.PartitionLayout

/-!
# Builders on a registry that grew

A builder does on a registry that grew what it does on the earlier one, as long as that succeeds: what
is added, the ids, and the definition that is built are the same.
-/

namespace Hynergy

variable {F : Type}

namespace DeviceDefinitionBuilder

/-- The same builder on a registry that grew. -/
structure Grown (next : DefinitionRegistry F) (builder other : DeviceDefinitionBuilder F) : Prop where
  same : other = { builder with registry := next }
  grown : next.Extends builder.registry

variable [F64 F] {next : DefinitionRegistry F}

open Call (Simulates)

omit [F64 F] in
theorem allocateNode_grown : Simulates (Grown next) (allocateNode : Build F NodeId) allocateNode := by
  refine .get_bind ?_
  rintro self _ ⟨rfl, grown⟩
  dsimp only
  cases Id.ofIndex? self.nodeCount with
  | none => exact .throw _
  | some node =>
    refine .bind (.rejectIf id) fun _ => .bind (.set ⟨rfl, grown⟩) fun _ => .pure _

omit [F64 F] in
theorem addParameter_grown (parameter : ParameterConstraints F) :
    Simulates (Grown next) (addParameter parameter) (addParameter parameter) := by
  refine .get_bind ?_
  rintro self _ ⟨rfl, grown⟩
  exact .bind (.okOr fun _ => id) fun _ => .bind (.set ⟨rfl, grown⟩) fun _ => .pure _

theorem validateParameter_grown (definitionId : DefinitionId) (parameterIndex : Nat) (value : ValueRef F)
    (constraint : ParameterConstraints F) : Simulates (Grown next)
      (validateParameter definitionId parameterIndex value constraint)
      (validateParameter definitionId parameterIndex value constraint) := by
  refine .get_bind ?_
  rintro self _ ⟨rfl, grown⟩
  cases value with
  | literal literal => exact .ofExcept _ _
  | parameter parameter => exact .bind (.okOr fun _ => id) fun _ => .rejectIf id

theorem validateElement_grown (element : Element F) :
    Simulates (Grown next) (validateElement element) (validateElement element) := by
  refine .get_bind ?_
  rintro self _ ⟨rfl, grown⟩
  refine .bind (.okOr fun definition found => grown _ _ found) fun definition => .bind (.rejectIf id) fun _ =>
    .bind (.rejectIf id) fun _ => .bind (.forM fun _ => .rejectIf id) fun _ =>
    .bind (.forM fun _ => validateParameter_grown _ _ _ _) fun _ => ?_
  split
  · exact .pure _
  · split
    · exact .pure _
    · exact .ofExcept _ _

theorem addElement_grown (element : Element F) :
    Simulates (Grown next) (addElement element) (addElement element) := by
  refine .bind (validateElement_grown element) fun _ => .get_bind ?_
  rintro self _ ⟨rfl, grown⟩
  exact .bind (.okOr fun _ => id) fun _ => .bind (.set ⟨rfl, grown⟩) fun _ => .pure _

omit [F64 F] in
theorem pushObserver_grown (observer : PendingDefinitionObserver) :
    Simulates (Grown next) (pushObserver observer : Build F DefinitionObserverId) (pushObserver observer) := by
  refine .get_bind ?_
  rintro self _ ⟨rfl, grown⟩
  exact .bind (.okOr fun _ => id) fun _ => .bind (.set ⟨rfl, grown⟩) fun _ => .pure _

omit [F64 F] in
theorem validateObserverNode_grown (node : NodeId) :
    Simulates (Grown next) (validateObserverNode node : Build F Unit) (validateObserverNode node) := by
  refine .get_bind ?_
  rintro self _ ⟨rfl, grown⟩
  exact .rejectIf id

omit [F64 F] in
theorem addChildObserver_grown (element : ElementId) (observer : DefinitionObserverId) :
    Simulates (Grown next) (addChildObserver element observer : Build F DefinitionObserverId)
      (addChildObserver element observer) := by
  refine .get_bind ?_
  rintro self _ ⟨rfl, grown⟩
  exact .bind (.okOr fun _ => id) fun _ => .bind (.expect fun _ found => grown _ _ found) fun _ =>
    .bind (.okOr fun _ => id) fun _ => pushObserver_grown _

theorem Operation.apply_grown (operation : Operation F) :
    Simulates (Grown next) operation.apply operation.apply := by
  cases operation with
  | addNode => exact .bind allocateNode_grown fun _ => .pure _
  | addTerminal =>
    refine .bind (.bind allocateNode_grown fun _ => .bind (.modify ?_) fun _ => .pure _) fun _ => .pure _
    rintro self _ ⟨rfl, grown⟩
    exact ⟨rfl, grown⟩
  | addParameter parameter => exact .bind (addParameter_grown parameter) fun _ => .pure _
  | addElement element => exact .bind (addElement_grown element) fun _ => .pure _
  | addVoltageObserver positive negative =>
    exact .bind (.bind (validateObserverNode_grown positive) fun _ => .bind (validateObserverNode_grown negative) fun _ =>
      pushObserver_grown _) fun _ => .pure _
  | addChildObserver element observer => exact .bind (addChildObserver_grown element observer) fun _ => .pure _

/-! ### The definition -/

omit [F64 F]

theorem Derive.fold_congr {α β : Type} {f g : β → α → Derive β} {list : List α}
    (same : ∀ item ∈ list, ∀ state, f state item = g state item) (state : β) : Derive.fold f state list = Derive.fold g state list := by
  induction list generalizing state with
  | nil => rfl
  | cons item list ih =>
    unfold Derive.fold
    rw [same item List.mem_cons_self state]
    exact congrArg (Derive.bind _) (funext fun next => ih (fun other member => same other (List.mem_cons_of_mem _ member)) next)

theorem foldlM_congr {α β : Type} {f g : β → α → Option β} {list : List α}
    (same : ∀ item ∈ list, ∀ state, f state item = g state item) (state : β) : list.foldlM f state = list.foldlM g state := by
  induction list generalizing state with
  | nil => rfl
  | cons item list ih =>
    rw [List.foldlM_cons, List.foldlM_cons, same item List.mem_cons_self state]
    exact congrArg (Option.bind _) (funext fun next => ih (fun other member => same other (List.mem_cons_of_mem _ member)) next)

variable {self other : DeviceDefinitionBuilder F}

section Same

variable (h : Grown next self other)
  (known : ∀ element ∈ self.elements, ∃ child, self.registry.get element.definition = some child)

include h known

theorem Grown.definitionOf {element : Element F} (member : element ∈ self.elements) :
    other.definitionOf element = self.definitionOf element := by
  obtain ⟨child, found⟩ := known element member
  obtain ⟨rfl, grown⟩ := h
  exact (grown _ _ found).trans found.symm

theorem Grown.sumChildren (count : DeviceDefinition F → Nat) (exhausted : DeviceDefinitionBuilderError) :
    other.sumChildren count exhausted = self.sumChildren count exhausted := by
  have elements : other.elements = self.elements := by rw [h.same]
  unfold DeviceDefinitionBuilder.sumChildren
  rw [elements]
  refine Derive.fold_congr (fun element member total => ?_) _
  rw [h.definitionOf known member]

theorem Grown.derivePartitionLayout : other.derivePartitionLayout = self.derivePartitionLayout := by
  have elements : other.elements = self.elements := by rw [h.same]
  have nodeCount : other.nodeCount = self.nodeCount := by rw [h.same]
  have terminals : other.terminals = self.terminals := by rw [h.same]
  have joined : ∀ element ∈ self.elements, ∀ state, other.joinElement state element = self.joinElement state element := by
    intro element member state
    unfold joinElement
    rw [h.definitionOf known member]
  have mapped : ∀ roots, ∀ element ∈ self.elements, ∀ state,
      other.elementPartitionsOf roots state element = self.elementPartitionsOf roots state element := by
    intro roots element member state
    unfold elementPartitionsOf
    rw [h.definitionOf known member]
  have unused : other.unusedNode = self.unusedNode := by
    unfold unusedNode
    rw [terminals, nodeCount]
  unfold DeviceDefinitionBuilder.derivePartitionLayout
  dsimp only
  rw [elements, nodeCount, terminals, unused, foldlM_congr joined, h.sumChildren known]
  simp only [Derive.fold_congr (mapped _)]

theorem Grown.deriveObservers (layout : DevicePartitionLayout) (nodePartitions : List DevicePartitionId) :
    other.deriveObservers layout nodePartitions = self.deriveObservers layout nodePartitions := by
  have elements : other.elements = self.elements := by rw [h.same]
  have observers : other.observers = self.observers := by rw [h.same]
  have offsets : other.elementPartitionOffsets = self.elementPartitionOffsets := by
    unfold elementPartitionOffsets
    rw [elements]
    refine foldlM_congr (fun element member state => ?_) _
    rw [h.definitionOf known member]
  have observed : ∀ offsets pending, other.observerPartition layout nodePartitions offsets pending =
      self.observerPartition layout nodePartitions offsets pending := by
    intro offsets pending
    unfold observerPartition
    cases pending.source with
    | voltage positive negative => rfl
    | current positive negative => rfl
    | child element observer =>
      dsimp only
      rw [elements]
      cases found : self.elements[element.index]? with
      | none => rfl
      | some childElement =>
        have member : childElement ∈ self.elements := List.mem_iff_getElem?.mpr ⟨_, found⟩
        simp only [Option.bind_eq_bind, Option.bind_some, h.definitionOf known member]
  unfold DeviceDefinitionBuilder.deriveObservers
  simp only [offsets, observers, observed]

/-- A definition whose elements are registered is built alike. -/
theorem Grown.buildDefinition : other.buildDefinition = self.buildDefinition := by
  have elements : other.elements = self.elements := by rw [h.same]
  have nodeCount : other.nodeCount = self.nodeCount := by rw [h.same]
  have terminals : other.terminals = self.terminals := by rw [h.same]
  have parameters : other.paramConstraints = self.paramConstraints := by rw [h.same]
  have usage : other.validateParameterUsage = self.validateParameterUsage := by
    unfold validateParameterUsage
    rw [elements, parameters]
  have states : other.deriveStateCount = self.deriveStateCount := h.sumChildren known _ _
  unfold DeviceDefinitionBuilder.buildDefinition
  simp only [usage, states, h.derivePartitionLayout known, h.deriveObservers known, elements, nodeCount, terminals, parameters]

end Same

end DeviceDefinitionBuilder

end Hynergy
