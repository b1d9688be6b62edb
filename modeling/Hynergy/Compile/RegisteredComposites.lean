import Hynergy.Compile.CompiledComposites
import Hynergy.Model.BuilderReturns

/-!
# The composites of a registry

A registered composite was built over an earlier registry. Its layout, its observers and its elements are then those
that the compiler expects, so that every registered definition is compiled to what its laws say.
-/

namespace Hynergy

open Lib

variable {F : Type}

/-! ### Where the places are -/

section Places

variable {registry : DefinitionRegistry F}

theorem Circuit.places_append (nodeCount : Nat) (elements : List (Element F)) {element : Element F} {child : DeviceDefinition F}
    (known : registry.get element.definition = some child) :
    ((⟨nodeCount, elements ++ [element]⟩ : Circuit F).places registry).map Prod.fst =
      ((⟨nodeCount, elements⟩ : Circuit F).places registry).map Prod.fst ++
        (List.range child.partitionCount).map (Prod.mk elements.length) := by
  rw [places, List.zipIdx_map_fst, places, List.zipIdx_map_fst, List.zipIdx_append, List.flatMap_append]
  simp only [List.zipIdx_cons, List.zipIdx_nil, List.flatMap_cons, List.flatMap_nil, List.append_nil, known, Nat.zero_add]
  rfl

theorem Circuit.places_length (nodeCount : Nat) {elements : List (Element F)}
    (known : ∀ element ∈ elements, ∃ child, registry.get (Element.definition element) = some child) :
    ((⟨nodeCount, elements⟩ : Circuit F).places registry).length = registry.partitionOffset elements := by
  induction elements using List.reverseRecOn with
  | nil => rfl
  | append_singleton elements element ih =>
    obtain ⟨child, there⟩ := known element (List.mem_append_right _ (List.mem_singleton_self _))
    have before := ih fun other member => known other (List.mem_append_left _ member)
    rw [DefinitionRegistry.partitionOffset_append there, ← before]
    simpa using congrArg List.length (places_append nodeCount elements there)

/-- The place of a child's partition is after those of the earlier elements. -/
theorem Circuit.places_at (nodeCount : Nat) {elements : List (Element F)}
    (known : ∀ element ∈ elements, ∃ child, registry.get (Element.definition element) = some child) {k p : Nat}
    {element : Element F} {child : DeviceDefinition F} (isElement : elements[k]? = some element)
    (isChild : registry.get element.definition = some child) (inside : p < child.partitionCount) :
    (((⟨nodeCount, elements⟩ : Circuit F).places registry).map Prod.fst)[registry.partitionOffset (elements.take k) + p]? =
      some (k, p) := by
  induction elements using List.reverseRecOn with
  | nil => cases isElement
  | append_singleton elements last ih =>
    obtain ⟨there, isLast⟩ := known last (List.mem_append_right _ (List.mem_singleton_self _))
    have before : ∀ element ∈ elements, ∃ child, registry.get (Element.definition element) = some child :=
      fun other member => known other (List.mem_append_left _ member)
    have length := places_length nodeCount before
    rw [places_append _ _ isLast]
    by_cases earlier : k < elements.length
    · rw [List.getElem?_append_left earlier] at isElement
      have here := ih before isElement
      rw [List.take_append_of_le_length earlier.le, List.getElem?_append_left (List.getElem?_eq_some_iff.mp here).1, here]
    · have bound := (List.getElem?_eq_some_iff.mp isElement).1
      rw [List.length_append, List.length_singleton] at bound
      obtain rfl : k = elements.length := by omega
      obtain rfl : last = element := Option.some.inj (List.getElem?_concat_length.symm.trans isElement)
      obtain rfl := Option.some.inj (isLast.symm.trans isChild)
      rw [List.take_left' rfl, List.getElem?_append_right (by rw [List.length_map, length]; omega), List.length_map, length,
        Nat.add_sub_cancel_left, List.getElem?_map, List.getElem?_range inside]
      rfl

/-- A child's partition is in that of its place in the layout. -/
theorem DeviceDefinition.mem_childPlaces_at {definition : DeviceDefinition F} {nodeCount k p partition : Nat}
    {elements : List (Element F)} (known : ∀ element ∈ elements, ∃ child, registry.get (Element.definition element) = some child)
    {element : Element F} {child : DeviceDefinition F} (isElement : elements[k]? = some element)
    (isChild : registry.get element.definition = some child) (inside : p < child.partitionCount) :
    (k, p) ∈ definition.childPlaces registry ⟨nodeCount, elements⟩ partition ↔
      definition.elementPartitions[registry.partitionOffset (elements.take k) + p]?.map Id.index = some partition := by
  have here := Circuit.places_at nodeCount known isElement isChild inside
  refine mem_childPlaces.trans ⟨?_, fun mapped => ⟨_, here, mapped⟩⟩
  rintro ⟨position, read, mapped⟩
  have same : position = registry.partitionOffset (elements.take k) + p :=
    (List.getElem?_inj (List.getElem?_eq_some_iff.mp read).1 (Circuit.places_nodup _ _)).mp (read.trans here.symm)
  exact same ▸ mapped

end Places

/-! ### What a builder derives -/

namespace DeviceDefinitionBuilder

variable {self : DeviceDefinitionBuilder F} {layout : DevicePartitionLayout} {nodePartitions : List DevicePartitionId}

/-- A terminal or an element is on every node of a layout. -/
theorem derivePartitionLayout_used (run : self.derivePartitionLayout = some (.ok (layout, nodePartitions))) {x : Nat}
    (inside : x < self.nodeCount) :
    (∃ terminal ∈ self.terminals, terminal.index = x) ∨ self.ElementsUse self.elements x := by
  unfold derivePartitionLayout at run
  dsimp only at run
  split at run
  · cases run
  rename_i folded
  split at run
  · cases run
  split at run
  · split at run <;> cases run
  rename_i noUnused
  exact (unusedNode_none noUnused inside).imp_right fun yes => (((joinElements folded).referenced x).mp yes).2

theorem deriveStateCount_sum {count : Nat} (run : self.deriveStateCount = some (.ok count)) :
    count = self.registry.stateOffset self.elements := by
  refine Derive.fold_ok (fun done total => total = self.registry.stateOffset done) rfl ?_ run
  intro done element total next holds taken
  split at taken
  · cases taken
  rename_i child known
  split at taken
  · obtain rfl := Except.ok.inj (Option.some.inj taken)
    have isChild : self.registry.get element.definition = some child := known
    rw [holds, DefinitionRegistry.stateOffset, DefinitionRegistry.stateOffset, List.map_append, List.sum_append,
      List.map_singleton, List.sum_singleton, isChild]
    rfl
  · cases taken

/-- Every pending observer becomes one of the partition that is derived for it. -/
theorem deriveObservers_reads {observers : List DefinitionObserver}
    (run : self.deriveObservers layout nodePartitions = some (.ok observers)) :
    ∃ offsets total, self.elementPartitionOffsets = some (offsets, total) ∧
      List.Forall₂ (fun pending observer => DefinitionObserver.source observer = PendingDefinitionObserver.source pending ∧
        self.observerPartition layout nodePartitions offsets pending = some (.ok observer.partition)) self.observers observers := by
  unfold deriveObservers at run
  split at run
  · cases run
  rename_i offsets total read
  refine ⟨offsets, total, read, ?_⟩
  refine Derive.fold_ok (fun done made => List.Forall₂ (fun pending observer =>
    DefinitionObserver.source observer = PendingDefinitionObserver.source pending ∧
      self.observerPartition layout nodePartitions offsets pending = some (.ok observer.partition)) done made) .nil ?_ run
  intro done pending made next holds taken
  obtain ⟨partition, derived, taken⟩ := Derive.bind_ok.mp taken
  obtain rfl := Except.ok.inj (Option.some.inj taken)
  exact List.rel_append holds (.cons ⟨rfl, derived⟩ .nil)

/-! ### What every builder keeps -/

open Call (Preserves)

/-- The terminals are on nodes of their own, and the observers are numbered. -/
structure Numbered (builder : DeviceDefinitionBuilder F) : Prop where
  inside : ∀ terminal ∈ builder.terminals, Id.index terminal < builder.nodeCount
  distinct : (builder.terminals.map Id.index).Nodup
  observers : builder.observers.length ≤ IdKind.observer.bound

theorem allocateNode_fresh (self : DeviceDefinitionBuilder F) :
    (allocateNode self).Meets True (fun node after => after = { self with nodeCount := self.nodeCount + 1 } ∧
      node.index = self.nodeCount) fun _ after => after = self := by
  unfold allocateNode
  rw [Call.get_bind]
  cases found : (Id.ofIndex? self.nodeCount : Option NodeId) with
  | none => exact rfl
  | some node =>
    dsimp only
    by_cases full : 2 ^ 32 ≤ self.nodeCount + 1
    · rw [Call.rejectIf_bind_pos full]
      exact rfl
    · rw [Call.rejectIf_bind_neg full, Call.set_bind]
      exact ⟨rfl, Id.ofIndex?_eq_some.mp found⟩

theorem Numbered.withNode (numbered : self.Numbered) :
    ({ self with nodeCount := self.nodeCount + 1 } : DeviceDefinitionBuilder F).Numbered :=
  ⟨fun terminal member => (numbered.inside terminal member).trans (Nat.lt_succ_self _), numbered.distinct, numbered.observers⟩

theorem pushObserver_numbered (pending : PendingDefinitionObserver) :
    Preserves Numbered (pushObserver pending : Build F DefinitionObserverId) := by
  refine .get_bind fun self numbered => Preserves.okOr_bind fun id found => .bind (.set ?_) fun _ => .pure _
  refine ⟨numbered.inside, numbered.distinct, ?_⟩
  have same : id.id = self.observers.length := Id.ofIndex?_eq_some.mp found
  rw [List.length_append, List.length_singleton]
  exact same ▸ id.fits

theorem Operation.apply_numbered [F64 F] (operation : Operation F) : Preserves Numbered operation.apply := by
  cases operation with
  | addNode =>
    refine .bind (fun self numbered => ?_) fun _ => .pure _
    refine (allocateNode_fresh self).mono id ?_ fun _ _ same => same ▸ numbered
    rintro node after ⟨rfl, -⟩
    exact numbered.withNode
  | addTerminal =>
    refine .bind (fun self numbered => ?_) fun _ => .pure _
    refine Call.meets_bind ((allocateNode_fresh self).mono id ?_ fun _ _ same => same ▸ numbered)
    rintro node after ⟨rfl, fresh⟩
    refine ⟨fun terminal member => ?_, ?_, numbered.observers⟩
    · rcases List.mem_append.mp member with earlier | last
      · exact numbered.withNode.inside terminal earlier
      · obtain rfl := List.mem_singleton.mp last
        exact fresh ▸ Nat.lt_succ_self _
    · show ((self.terminals ++ [node]).map Id.index).Nodup
      rw [List.map_append, List.map_singleton]
      refine List.nodup_append.mpr ⟨numbered.distinct, List.nodup_singleton _, ?_⟩
      rintro x earlier y last rfl
      obtain ⟨terminal, member, same⟩ := List.mem_map.mp earlier
      have below := numbered.inside terminal member
      rw [same, List.mem_singleton.mp last, fresh] at below
      exact Nat.lt_irrefl _ below
  | addParameter parameter =>
    refine .bind ?_ fun _ => .pure _
    exact .get_bind fun self numbered => (Preserves.okOr _ _).bind fun _ =>
      .bind (.set ⟨numbered.inside, numbered.distinct, numbered.observers⟩) fun _ => .pure _
  | addElement element =>
    refine .bind ?_ fun _ => .pure _
    exact (validateElement_keeps element).bind fun _ => .get_bind fun self numbered => (Preserves.okOr _ _).bind fun _ =>
      .bind (.set ⟨numbered.inside, numbered.distinct, numbered.observers⟩) fun _ => .pure _
  | addVoltageObserver positive negative =>
    refine .bind ?_ fun _ => .pure _
    exact .bind (.get_bind fun _ _ => .rejectIf _ _) fun _ => .bind (.get_bind fun _ _ => .rejectIf _ _) fun _ =>
      pushObserver_numbered _
  | addChildObserver element observer =>
    refine .bind ?_ fun _ => .pure _
    exact .get_bind fun _ _ => (Preserves.okOr _ _).bind fun _ => (Preserves.expect _).bind fun _ =>
      (Preserves.okOr _ _).bind fun _ => pushObserver_numbered _

theorem Reached.numbered [F64 F] {base : DefinitionRegistry F} {builder : DeviceDefinitionBuilder F}
    (reached : Reached base builder) : builder.Numbered := by
  induction reached with
  | new => exact ⟨fun _ member => absurd member List.not_mem_nil, List.nodup_nil, Nat.zero_le _⟩
  | call _ operation leaves ih => exact operation.apply_numbered.leaves ih leaves

end DeviceDefinitionBuilder

/-! ### Built composites -/

section Built

variable [F64 F] {registry base : DefinitionRegistry F} {builder : DeviceDefinitionBuilder F} {definition : DeviceDefinition F}
  {nodePartitions : List DevicePartitionId}

open DeviceDefinition DeviceDefinitionBuilder

/-- A definition and what it was built from, in a registry that grew since. -/
structure BuiltOver (registry base : DefinitionRegistry F) (builder : DeviceDefinitionBuilder F) (definition : DeviceDefinition F)
    (nodePartitions : List DevicePartitionId) : Prop where
  calls : builder.Reached base
  registry_eq : builder.registry = base
  partitioned : base.Partitioned
  grown : registry.Extends base
  layoutRun : builder.derivePartitionLayout = some (.ok (definition.partitionLayout, nodePartitions))
  laidOut : builder.LaidOut definition.partitionLayout nodePartitions
  terminals : definition.terminals = builder.terminals

namespace BuiltOver

variable (built : BuiltOver registry base builder definition nodePartitions)

include built

theorem known_base : ∀ element ∈ builder.elements, ∃ child, base.get (Element.definition element) = some child :=
  fun element member => built.registry_eq ▸ built.laidOut.known element member

theorem known : ∀ element ∈ builder.elements, ∃ child, registry.get (Element.definition element) = some child :=
  fun element member => (built.known_base element member).imp fun _ there => built.grown _ _ there

theorem get_base {k : Nat} {element : Element F} {child : DeviceDefinition F} (isElement : builder.elements[k]? = some element)
    (isChild : registry.get element.definition = some child) : base.get element.definition = some child := by
  obtain ⟨other, there⟩ := built.known_base element (List.mem_of_getElem? isElement)
  exact Option.some.inj ((built.grown _ _ there).symm.trans isChild) ▸ there

theorem offset_eq (k : Nat) :
    registry.partitionOffset (builder.elements.take k) = base.partitionOffset (builder.elements.take k) :=
  DefinitionRegistry.partitionOffset_extend built.grown fun element member =>
    built.known_base element (List.mem_of_mem_take member)

/-- The partition of a child at an element's terminal is in that of the terminal's node. -/
theorem place_node (partition : Nat) {k t : Nat} {element : Element F} {child : DeviceDefinition F} {node : NodeId}
    {part : DevicePartitionId} (isElement : builder.elements[k]? = some element)
    (isChild : registry.get element.definition = some child) (isNode : element.terminals[t]? = some node)
    (isPart : child.terminalPartitions[t]? = some part) : node.index < builder.nodeCount ∧
      ((k, part.index) ∈ definition.childPlaces registry ⟨builder.nodeCount, builder.elements⟩ partition ↔
        nodePartitions[node.index]?.map Id.index = some partition) := by
  have inBase := built.get_base isElement isChild
  have inside := (built.partitioned _ _ inBase).inRange part (List.mem_of_getElem? isPart)
  have listed : (node, part) ∈ element.terminals.zip child.terminalPartitions :=
    List.mem_iff_getElem?.mpr ⟨t, List.getElem?_zip_eq_some.mpr ⟨isNode, isPart⟩⟩
  obtain ⟨below, reads⟩ := built.laidOut.children k element child isElement
    (show builder.registry.get element.definition = some child from built.registry_eq ▸ inBase) (node, part) listed
  rw [built.registry_eq] at reads
  refine ⟨below, (mem_childPlaces_at built.known isElement isChild inside).trans ?_⟩
  rw [built.offset_eq, ← reads]

/-- A terminal or an element of the partition of a node is on it. -/
theorem touches {node : NodeId} {part : DevicePartitionId} (read : nodePartitions[node.index]? = some part) :
    definition.Touches registry ⟨builder.nodeCount, builder.elements⟩ part.index node := by
  have inside : node.index < builder.nodeCount := built.laidOut.length ▸ (List.getElem?_eq_some_iff.mp read).1
  rcases derivePartitionLayout_used built.layoutRun inside with
    ⟨terminal, member, same⟩ | ⟨element, member, child, isChild, entry, isEntry, same⟩
  · obtain rfl : terminal = node := Id.ext' same
    obtain ⟨i, isI⟩ := List.mem_iff_getElem?.mp member
    exact Or.inl ⟨i, mem_terminalsOf.mpr ⟨part, (built.laidOut.terminals i terminal isI).2.trans read, rfl⟩,
      built.terminals ▸ isI⟩
  · obtain ⟨k, isElement⟩ := List.mem_iff_getElem?.mp member
    obtain ⟨t, isTerminal⟩ := List.mem_iff_getElem?.mp isEntry
    obtain ⟨isNode, isPart⟩ := List.getElem?_zip_eq_some.mp isTerminal
    obtain rfl : entry.1 = node := Id.ext' same
    have found := built.grown _ _ (show base.get element.definition = some child from built.registry_eq ▸ isChild)
    have place := (built.place_node part.index isElement found isNode isPart).2.mpr (by rw [read]; rfl)
    exact Or.inr ⟨_, place, element, child, isElement, found, t, mem_terminalsOf.mpr ⟨entry.2, isPart, rfl⟩, isNode⟩

/-- The terminals on the node of an element's terminal are of its partition. -/
theorem inside_place {partition : Nat} {place : Nat × Nat}
    (member : place ∈ definition.childPlaces registry ⟨builder.nodeCount, builder.elements⟩ partition) {element : Element F}
    {child : DeviceDefinition F} (isElement : builder.elements[place.1]? = some element)
    (isChild : registry.get element.definition = some child) {t : Nat} (ofPlace : t ∈ child.terminalsOf place.2) :
    ∃ node, element.terminals[t]? = some node ∧ node.index < builder.nodeCount ∧ definition.Inside partition node.index := by
  obtain ⟨part, isPart, here⟩ := mem_terminalsOf.mp ofPlace
  have inBase := built.get_base isElement isChild
  obtain ⟨⟨other, isOther, length⟩, -⟩ := built.calls.fits.elements element (List.mem_of_getElem? isElement)
  obtain rfl : other = child := Option.some.inj ((built.registry_eq ▸ isOther : base.get _ = some other).symm.trans inBase)
  have short : t < element.terminals.length := by
    rw [length, ← (built.partitioned _ _ inBase).length]
    exact (List.getElem?_eq_some_iff.mp isPart).1
  have isNode := List.getElem?_eq_getElem short
  obtain ⟨below, placed⟩ := built.place_node partition isElement isChild isNode isPart
  have nodeRead := placed.mp (here ▸ member)
  refine ⟨_, isNode, below, fun i there found isThere same isFound => ?_⟩
  have terminalRead := (built.laidOut.terminals i there (built.terminals ▸ isThere)).2
  rw [same] at terminalRead
  rw [← terminalRead, isFound] at nodeRead
  exact Option.some.inj nodeRead

/-- What a derived observer shows is in its partition. -/
theorem observes {pending : PendingDefinitionObserver} (member : pending ∈ builder.observers) {offsets : List Nat} {total : Nat}
    (offsetsRun : builder.elementPartitionOffsets = some (offsets, total)) {part : DevicePartitionId}
    (derived : builder.observerPartition definition.partitionLayout nodePartitions offsets pending = some (.ok part))
    (presented : ∀ id child, base.get id = some child → DeviceDefinitionBuilder.Observes child) :
    definition.Observes registry ⟨builder.nodeCount, builder.elements⟩ part.index pending.source := by
  have observable := built.calls.fits.observers pending member
  unfold observerPartition at derived
  cases source : pending.source with
  | current positive negative =>
    rw [source] at observable
    exact observable
  | voltage positive negative =>
    rw [source] at derived
    dsimp only at derived
    split at derived
    · rename_i first second isFirst isSecond
      split at derived
      · cases derived
      · rename_i together
        obtain rfl := Except.ok.inj (Option.some.inj derived)
        obtain rfl : first = second := not_not.mp together
        exact ⟨built.touches isFirst, built.touches isSecond⟩
    · cases derived
  | child element observer =>
    rw [source] at derived observable
    obtain ⟨there, child, observed, isThere, isChild, isObserved⟩ := observable
    have inBase : base.get there.definition = some child := built.registry_eq ▸ isChild
    have found := built.grown _ _ inBase
    obtain ⟨_, _, same, read⟩ := elementPartitionOffsets_returns built.calls.fits.known
      (derivePartitionLayout_small built.layoutRun)
    obtain ⟨rfl, -⟩ := Prod.mk.inj (Option.some.inj (offsetsRun.symm.trans same))
    have offset := read element.index (List.getElem?_eq_some_iff.mp isThere).1
    dsimp only at derived
    rw [bind_of_eq_some isThere, bind_of_eq_some (show builder.definitionOf there = some child from isChild),
      bind_of_eq_some isObserved, bind_of_eq_some offset] at derived
    obtain ⟨here, inLayout, same⟩ := Option.map_eq_some_iff.mp derived
    obtain rfl := Except.ok.inj same
    split at inLayout
    · have inside := presented _ _ inBase observed (List.mem_of_getElem? isObserved)
      refine ⟨there, child, observed, isThere, found, isObserved, (mem_childPlaces_at built.known isThere found inside).mpr ?_⟩
      rw [built.offset_eq, ← built.registry_eq, inLayout]
      rfl
    · cases inLayout

end BuiltOver

/-- The states of a built composite are those of its elements. -/
theorem DeviceDefinitionBuilder.buildDefinition_states (calls : builder.Reached base)
    (build : builder.buildDefinition = some (.ok definition)) (grown : registry.Extends base) :
    definition.stateCount = registry.stateOffset builder.elements := by
  obtain ⟨-, counted, -⟩ := buildDefinition_ok build
  have registry_eq := calls.registry_eq
  rw [deriveStateCount_sum counted, registry_eq]
  refine congrArg List.sum (List.map_congr_left fun element member => ?_)
  obtain ⟨child, there⟩ := calls.fits.known element member
  have inBase : base.get element.definition = some child := registry_eq ▸ there
  rw [inBase, grown _ _ inBase]

/-- A built composite is what the compiler expects of one. -/
theorem DeviceDefinitionBuilder.buildDefinition_shaped (reached : base.Reached) (calls : builder.Reached base)
    (build : builder.buildDefinition = some (.ok definition)) (grown : registry.Extends base)
    (few : definition.stateCount ≤ IdKind.state.bound) :
    Shaped registry definition ⟨builder.nodeCount, builder.elements⟩ := by
  obtain ⟨nodePartitions, -, layoutRun, observed, body, terminals, parameters⟩ := buildDefinition_ok build
  have registry_eq := calls.registry_eq
  have laidOut := derivePartitionLayout_laidOut
    (fun element child (found : builder.registry.get _ = _) => reached.partitioned _ _ (registry_eq ▸ found)) layoutRun
  have built : BuiltOver registry base builder definition nodePartitions :=
    ⟨calls, registry_eq, reached.partitioned, grown, layoutRun, laidOut, terminals⟩
  have partitioned := buildDefinition_partitioned build
  have numbered := calls.numbered
  have checked := calls.checked
  obtain ⟨offsets, total, offsetsRun, observers⟩ := deriveObservers_reads observed
  have stateCount := buildDefinition_states calls build grown
  -- distinct nodes are at most as many as there are nodes
  have terminalCount : definition.terminals.length ≤ IdKind.terminal.bound := by
    have few : (builder.terminals.map Id.index).length ≤ (List.range builder.nodeCount).length :=
      (numbered.distinct.subperm fun x member => by
        obtain ⟨terminal, isTerminal, rfl⟩ := List.mem_map.mp member
        exact List.mem_range.mpr (numbered.inside terminal isTerminal)).length_le
    rw [List.length_map, List.length_range] at few
    exact terminals ▸ few.trans calls.fits.nodes.le
  have counted' := DevicePartitionLayout.canonical_mem laidOut.numbered
  refine ⟨body, partitioned.length, terminals ▸ numbered.distinct, fun node member => ?_, ?_, stateCount,
    ⟨few, terminalCount, observers.length_eq ▸ numbered.observers⟩, partitioned.bounded, fun part member => ?_,
    fun element member => ?_, fun element member parameter isParameter => ?_, ?_, fun j observer isObserver => ?_⟩
  · exact numbered.inside node (terminals ▸ member)
  · rw [Circuit.places_length _ built.known]
    have offset := built.offset_eq builder.elements.length
    rw [List.take_length] at offset
    rw [offset, ← registry_eq]
    exact laidOut.elementsLength
  · exact (counted' _).mpr ⟨part, List.mem_append_right _ member, rfl⟩
  · obtain ⟨child, here⟩ := checked element member
    exact ⟨child, grown _ _ (registry_eq ▸ here.known), here.count⟩
  · obtain ⟨child, here⟩ := checked element member
    obtain ⟨i, isI⟩ := List.mem_iff_getElem?.mp isParameter
    have short : i < child.parameters.length := here.count ▸ (List.getElem?_eq_some_iff.mp isI).1
    obtain ⟨provided, read, -⟩ := here.passes (.parameter parameter, child.parameters[i])
      (List.mem_iff_getElem?.mpr ⟨i, List.getElem?_zip_eq_some.mpr ⟨isI, List.getElem?_eq_getElem short⟩⟩)
    show parameter.index < definition.paramConstraints.length
    rw [parameters]
    exact (List.getElem?_eq_some_iff.mp read).1
  · intro partition place member element child isElement isChild t ofPlace
    exact built.inside_place member isElement isChild ofPlace
  · obtain ⟨inside, rfl⟩ := List.getElem?_eq_some_iff.mp isObserver
    have inside' : j < builder.observers.length := observers.length_eq ▸ inside
    obtain ⟨source, derived⟩ := observers.get inside' inside
    rw [List.get_eq_getElem, List.get_eq_getElem] at source derived
    rw [source]
    exact built.observes (List.getElem_mem inside') offsetsRun derived fun id child found => (reached.presented id child found).2

end Built

/-! ### Registries -/

namespace DefinitionRegistry

variable [F64 F] {registry : DefinitionRegistry F}

/-- Every definition of a registry is a primitive's, or was built over earlier ones. -/
theorem Reached.built (reached : registry.Reached) : ∀ id definition, registry.get id = some definition →
    (∃ kind : PrimitiveElementKind, definition = kind.definition) ∨
      ∃ (base : DefinitionRegistry F) (builder : DeviceDefinitionBuilder F), base.Reached ∧ builder.Reached base ∧
        builder.buildDefinition = some (.ok definition) ∧ registry.Extends base ∧
        ∀ other child, base.get other = some child → other.index < id.index := by
  induction reached with
  | new => exact fun id definition found => Or.inl (get_new found)
  | @register self base next builder definition id reached built extends' calls build registered ih _ =>
    have grown := register_extends registered
    intro other found there
    rcases get_registered registered there with earlier | ⟨rfl, rfl⟩
    · refine (ih other found earlier).imp_right ?_
      rintro ⟨base, builder, built, calls, build, extends', before⟩
      exact ⟨base, builder, built, calls, build, grown.trans extends', before⟩
    · obtain ⟨last, -⟩ := register_ok registered
      refine Or.inr ⟨base, builder, built, calls, build, grown.trans extends', fun earlier child found => ?_⟩
      exact last ▸ (List.getElem?_eq_some_iff.mp (extends' _ _ found)).1

/-- A registry of definitions whose states can be numbered. -/
def Numerable (registry : DefinitionRegistry F) : Prop :=
  ∀ id definition, registry.get id = some definition → definition.stateCount ≤ IdKind.state.bound

theorem numerable_new : (new : DefinitionRegistry F).Numerable := by
  intro id definition found
  obtain ⟨kind, rfl⟩ := get_new found
  show kind.stateCount ≤ _
  cases kind <;> decide

omit [F64 F] in
theorem Numerable.register (numerable : registry.Numerable) {next : DefinitionRegistry F} {id : DefinitionId}
    {definition : DeviceDefinition F} (few : definition.stateCount ≤ IdKind.state.bound)
    (registered : registry.register definition = .ok (id, next)) : next.Numerable := by
  intro other found there
  rcases get_registered registered there with earlier | ⟨-, rfl⟩
  · exact numerable other found earlier
  · exact few

theorem Reached.layered (reached : registry.Reached) (numerable : registry.Numerable) : registry.Layered := by
  intro id definition found
  refine (reached.built id definition found).imp_right ?_
  rintro ⟨base, builder, built, calls, build, grown, before⟩
  refine ⟨_, DeviceDefinitionBuilder.buildDefinition_shaped built calls build grown (numerable id definition found),
    fun element member => ?_⟩
  obtain ⟨child, here⟩ := calls.checked element member
  exact before _ child (calls.registry_eq ▸ here.known)

end DefinitionRegistry

section Compiled

variable [Field F] [F64 F] {registry : DefinitionRegistry F} {latch : F → F → F → Prop} {definition : DeviceDefinition F}

open PrimitiveElementKind

/-- Over exact arithmetic, every definition that was built and registered is compiled, without a panic, to partitions
that say the laws of its own and of all that is in it, unless the numbers of a template are exhausted. -/
theorem CompiledDefinition.compile_registered (exact : F64.ExactArithmetic F) (reached : registry.Reached)
    (numerable : registry.Numerable) (fuel : Nat) {id : DefinitionId} (found : registry.get id = some definition)
    (enough : id.index < fuel) :
    (CompiledDefinition.compile registry fuel definition ()).Meets False
      (fun compiled _ => CompiledDefinition.Compiles registry latch definition compiled)
      fun error _ => error = .template .idExhausted :=
  CompiledDefinition.compile_meets exact (reached.layered numerable) fuel found enough

/-- A delay with a load, and two of these in a chain with a load: composites over composites can be registered. -/
theorem DefinitionRegistry.reached_delayedChain : ∃ (registry : DefinitionRegistry ℚ) (id : DefinitionId)
    (definition : DeviceDefinition ℚ) (circuit : Circuit ℚ), registry.Reached ∧ registry.Numerable ∧
      registry.get id = some definition ∧ id.index < 32 ∧ definition.partitionCount = 3 ∧
      definition.body = .composite circuit ∧ circuit.elements.length = 3 := by
  have defined : (((new : DefinitionRegistry ℚ).define
      [.addTerminal, .addTerminal, .addTerminal, .addTerminal, .addParameter { lower := some ⟨0, false⟩ },
        .addElement ⟨tickDelay.definitionId, [⟨0, by decide⟩, ⟨1, by decide⟩, ⟨2, by decide⟩, ⟨3, by decide⟩], []⟩,
        .addElement ⟨resistance.definitionId, [⟨2, by decide⟩, ⟨3, by decide⟩], [.parameter ⟨0, by decide⟩]⟩]).any fun stage =>
      decide (stage.2.1.stateCount = 1) && (stage.2.2.2.define
        [.addTerminal, .addTerminal, .addNode, .addNode, .addTerminal, .addTerminal,
          .addElement ⟨stage.1, [⟨0, by decide⟩, ⟨1, by decide⟩, ⟨2, by decide⟩, ⟨3, by decide⟩], [.literal 3]⟩,
          .addElement ⟨stage.1, [⟨2, by decide⟩, ⟨3, by decide⟩, ⟨4, by decide⟩, ⟨5, by decide⟩], [.literal 5]⟩,
          .addElement ⟨resistance.definitionId, [⟨4, by decide⟩, ⟨5, by decide⟩], [.literal 1]⟩]).any fun chain =>
        decide (chain.2.1.stateCount = 2) && decide (chain.1.index < 32) && decide (chain.2.1.partitionCount = 3) &&
          decide (chain.2.2.1.elements.length = 3)) = true := by
    decide +kernel
  obtain ⟨⟨stage, first, _, registry⟩, defines, holds⟩ := (Option.any_eq_true _ _).mp defined
  rw [Bool.and_eq_true, decide_eq_true_iff, Option.any_eq_true] at holds
  obtain ⟨one, ⟨chain, second, builder, next⟩, defines', holds⟩ := holds
  simp only [Bool.and_eq_true, decide_eq_true_eq] at holds
  obtain ⟨⟨⟨two, enough⟩, three⟩, elements⟩ := holds
  obtain ⟨reached, registered, -, -⟩ := DefinitionRegistry.Reached.new.define defines
  obtain ⟨reached', registered', found, body⟩ := reached.define defines'
  have numerable := numerable_new.register (show first.stateCount ≤ _ from one ▸ by decide) registered
  exact ⟨next, chain, second, _, reached', numerable.register (two ▸ by decide) registered', found, enough, three, body, elements⟩

/-- The chain is compiled. -/
theorem CompiledDefinition.compile_registered_delayedChain : ∃ (registry : DefinitionRegistry ℚ) (id : DefinitionId)
    (definition : DeviceDefinition ℚ), registry.get id = some definition ∧ definition.partitionCount = 3 ∧
      ∀ latch, (CompiledDefinition.compile registry 32 definition ()).Meets False
        (fun compiled _ => CompiledDefinition.Compiles registry latch definition compiled)
        fun error _ => error = .template .idExhausted := by
  obtain ⟨registry, id, definition, -, reached, numerable, found, enough, three, -⟩ := DefinitionRegistry.reached_delayedChain
  exact ⟨registry, id, definition, found, three, fun _ =>
    CompiledDefinition.compile_registered exactArithmetic_rat reached numerable 32 found enough⟩

end Compiled

end Hynergy
