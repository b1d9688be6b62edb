import Hynergy.Compile.CompositionRounds

/-!
# Partitions of composites

A composition starts with the terminals of the partition and ends with its observers; it then compiles to what the law
of the partition says.
-/

namespace Hynergy

open Lib DefinitionTemplateBuilder

variable {F : Type}

/-! ### Numbers -/

/-- Numbers below the bound are ids. -/
theorem mapM_ofIndex {α : Type} {kind : IdKind} {items : List α} {number : α → Nat}
    (below : ∀ item ∈ items, number item < kind.bound) :
    ∃ ids : List (Id kind), items.mapM (fun item => Id.ofIndex? (number item)) = some ids ∧
      ids.map Id.index = items.map number := by
  induction items with
  | nil => exact ⟨[], rfl, rfl⟩
  | cons item items ih =>
    obtain ⟨ids, run, same⟩ := ih fun other member => below other (List.mem_cons_of_mem _ member)
    have isId : (Id.ofIndex? (number item) : Option (Id kind)) = some ⟨number item, below item List.mem_cons_self⟩ :=
      Id.ofIndex?_eq_some.mpr rfl
    refine ⟨⟨number item, below item List.mem_cons_self⟩ :: ids, ?_, ?_⟩
    · rw [List.mapM_cons, isId, run]
      rfl
    · rw [List.map_cons, List.map_cons, same]

theorem definitionTerminals_read {definition : DeviceDefinition F} (partition : DevicePartitionId)
    (bounded : definition.terminalPartitions.length ≤ IdKind.terminal.bound) :
    ∃ terminals, definitionTerminalsForPartition definition partition = some terminals ∧
      terminals.map Id.index = definition.terminalsOf partition.index := by
  obtain ⟨terminals, run, same⟩ := mapM_ofIndex
    (fun entry member =>
      (List.getElem?_eq_some_iff.mp (List.mem_zipIdx_iff_getElem?.mp (List.mem_filter.mp member).1)).1.trans_le bounded)
  refine ⟨terminals, run, same.trans ?_⟩
  rw [DeviceDefinition.terminalsOf, places]
  congr 2
  funext entry
  exact decide_eq_decide.mpr ⟨congrArg Id.index, Id.ext'⟩

theorem observersOf_eq (definition : DeviceDefinition F) (partition : DevicePartitionId) :
    (definition.observers.zipIdx.filter fun entry => decide (entry.1.partition = partition)).map Prod.snd =
      definition.observersOf partition.index := by
  rw [DeviceDefinition.observersOf, places]
  congr 2
  funext entry
  exact decide_eq_decide.mpr ⟨congrArg Id.index, Id.ext'⟩

variable [F64 F] {registry : DefinitionRegistry F} {definition : DeviceDefinition F} {circuit : Circuit F}
  {children : List (CompiledDefinition F)} {partition : DevicePartitionId} {made before : Composition F}

namespace Composition

/-! ### Terminals -/

/-- Only the terminals have nodes yet. -/
structure Exposing (registry : DefinitionRegistry F) (definition : DeviceDefinition F) (circuit : Circuit F)
    (children : List (CompiledDefinition F)) (partition : DevicePartitionId) (terminalNodes : List Nat)
    (before made : Composition F) : Prop where
  composing : ∃ nodes, Composing registry circuit children definition.parameters.length (definition.Inside partition.index)
    terminalNodes made [] nodes
  counted : made.builder.unknowns.length = terminalNodes.length
  only : ∀ (n : Nat) u, made.nodeUnknowns[n]? = some (some u) → n ∈ terminalNodes
  slots : made.slots = before.slots
  outputs : made.builder.outputs = before.builder.outputs
  forwarded : made.forwardedObserverValues = before.forwardedObserverValues

/-- A terminal more has an unknown. -/
theorem terminal_meets {terminalNodes : List Nat}
    (h : Exposing registry definition circuit children partition terminalNodes before made) {terminal : TerminalId} {node : NodeId}
    (isNode : definition.terminals[terminal.index]? = some node) (below : node.index < circuit.nodeCount)
    (inside : definition.Inside partition.index node.index) (fresh : node.index ∉ terminalNodes) :
    (Composition.terminal definition terminal made).Meets False
      (fun _ after => Exposing registry definition circuit children partition (terminalNodes ++ [node.index]) before after)
      fun error _ => error = .idExhausted := by
  obtain ⟨nodes, composing⟩ := h.composing
  have within : node.index < made.nodeUnknowns.length := composing.onNodes.length ▸ below
  have free : made.nodeUnknowns[node.index]? = some none := by
    rw [List.getElem?_eq_getElem within]
    refine congrArg some ?_
    cases known : made.nodeUnknowns[node.index] with
    | none => rfl
    | some u => exact absurd (h.only node.index u (by rw [List.getElem?_eq_getElem within, known])) fresh
  unfold Composition.terminal
  rw [isNode, Call.expect_some_bind]
  refine Call.meets_bind (onBuilder_meets (terminalVoltage_meets composing.assembled.sound) ?_)
  rintro unknown builder ⟨rfl, sound, isBuilder⟩
  have unknowns : builder.unknowns = made.builder.unknowns ++ [⟨.voltage, .terminal made.builder.terminalCount⟩] := by
    rw [isBuilder]
  have values : builder.values = made.builder.values := by rw [isBuilder]
  rw [Call.get_bind, free, Call.expect_some_bind, Call.set_apply]
  have last : ∀ t : Nat, (terminalNodes ++ [node.index])[t]? = some node.index ↔ t = terminalNodes.length := by
    intro t
    constructor
    · intro read
      rcases read_concat read with ⟨earlier, -⟩ | ⟨same, -⟩
      · exact absurd (List.mem_of_getElem? earlier) fresh
      · exact same
    · rintro rfl
      exact List.getElem?_concat_length
  refine ⟨⟨nodes ++ [made.builder.unknowns.length], ?_, ?_, fun n u read => ?_, ?_, composing.states, ?_, by simp, ?_⟩, ?_,
    fun n u read => ?_, ?_, ?_, h.forwarded⟩
  · refine composing.assembled.grow sound (values ▸ List.prefix_rfl) unknowns ?_
    rw [isBuilder]
    exact ⟨rfl, rfl, rfl, rfl⟩
  · refine composing.onNodes.push free unknowns rfl (fun t => ?_) (fun t m other => ?_) fun t isTerminal => ?_
    · rw [last, ← composing.terminalCount]
      exact ⟨fun same => (Option.some.inj same).symm, fun same => congrArg some same.symm⟩
    · constructor
      · intro read
        rcases read_concat read with ⟨earlier, -⟩ | ⟨-, same⟩
        · exact earlier
        · exact absurd same other
      · intro read
        rw [List.getElem?_append_left (List.getElem?_eq_some_iff.mp read).1, read]
    · rw [h.counted]
      exact (last t).mp isTerminal
  · by_cases same : node.index = n
    · exact same ▸ inside
    · exact composing.within n u (by rwa [List.getElem?_set_ne same] at read)
  · refine ⟨composing.parameters.length, ?_, composing.parameters.inside, fun p id read => ?_⟩
    · rw [← composing.parameters.count, isBuilder]
    · obtain ⟨j, isParameter, there⟩ := composing.parameters.placed p id read
      exact ⟨j, isParameter, read_grown (values ▸ List.prefix_rfl) there⟩
  · rw [isBuilder]
    exact composing.counted
  · rw [isBuilder, List.length_append, ← composing.terminalCount]
    rfl
  · rw [unknowns, List.length_append, List.length_append, h.counted]
    rfl
  · by_cases same : node.index = n
    · exact List.mem_append_right _ (List.mem_singleton.mpr same.symm)
    · exact List.mem_append_left _ (h.only n u (by rwa [List.getElem?_set_ne same] at read))
  · rw [← h.slots]
    simp only [slots, isBuilder]
  · rw [← h.outputs, isBuilder]

/-- The terminals of a partition have the first unknowns, in their order. -/
theorem terminals_exposed (paired : definition.terminalPartitions.length = definition.terminals.length)
    (distinct : (definition.terminals.map Id.index).Nodup)
    (within : ∀ node ∈ definition.terminals, Id.index node < circuit.nodeCount) {terminals : List TerminalId}
    (isTerminals : terminals.map Id.index = definition.terminalsOf partition.index)
    (start : Exposing registry definition circuit children partition [] before made) :
    (terminals.forM (Composition.terminal definition) made).Meets False
      (fun _ after => Exposing registry definition circuit children partition
        ((definition.terminalsOf partition.index).map definition.nodeAt) before after)
      fun error _ => error = .idExhausted := by
  have at_eq : ∀ {i j : Nat} {node other : NodeId}, definition.terminals[i]? = some node →
      definition.terminals[j]? = some other → node.index = other.index → i = j := by
    intro i j node other atI atJ same
    have inside : i < (definition.terminals.map Id.index).length := by
      rw [List.length_map]
      exact (List.getElem?_eq_some_iff.mp atI).1
    refine (List.getElem?_inj inside distinct).mp ?_
    rw [List.getElem?_map, List.getElem?_map, atI, atJ, Option.map_some, Option.map_some, same]
  have same : (definition.terminalsOf partition.index).map definition.nodeAt =
      terminals.map fun terminal => definition.nodeAt (Id.index terminal) := by
    rw [← isTerminals, List.map_map]
    rfl
  rw [same]
  refine Call.forM_meets (fun seen after => Exposing registry definition circuit children partition
    (seen.map fun terminal => definition.nodeAt (Id.index terminal)) before after) ?_ start
  · rintro seen terminal rest state split exposing
    have numbers : ∀ other ∈ terminals, ∃ node part, definition.terminals[Id.index other]? = some node ∧
        definition.terminalPartitions[Id.index other]? = some part ∧ Id.index part = partition.index := by
      intro other member
      have number : Id.index other ∈ definition.terminalsOf partition.index := isTerminals ▸ List.mem_map_of_mem member
      obtain ⟨part, isPart, here⟩ := DeviceDefinition.mem_terminalsOf.mp number
      have below : Id.index other < definition.terminals.length := paired ▸ (List.getElem?_eq_some_iff.mp isPart).1
      exact ⟨_, part, List.getElem?_eq_getElem below, isPart, here⟩
    obtain ⟨node, part, isNode, isPart, here⟩ := numbers terminal (split ▸ List.mem_append_right _ List.mem_cons_self)
    have nodup : (terminals.map Id.index).Nodup := isTerminals ▸ places_nodup _ _
    rw [List.map_append, List.map_singleton, DeviceDefinition.nodeAt_eq isNode]
    refine terminal_meets exposing isNode (within node (List.mem_of_getElem? isNode)) ?_ ?_
    · intro i there part' isThere same isPart'
      obtain rfl := at_eq isThere isNode same
      obtain rfl := Option.some.inj (isPart.symm.trans isPart')
      exact here
    · intro earlier
      obtain ⟨other, member, same⟩ := List.mem_map.mp earlier
      obtain ⟨node', -, isNode', -⟩ := numbers other (split ▸ List.mem_append_left _ member)
      rw [DeviceDefinition.nodeAt_eq isNode'] at same
      have number := at_eq isNode' isNode same
      rw [← split, List.map_append, List.nodup_append] at nodup
      exact nodup.2.2 _ (List.mem_map_of_mem member) _ (List.mem_map_of_mem List.mem_cons_self) number

end Composition

/-! ### Observers -/

section Observers

variable {latch : F → F → F → Prop} {items : List (PlacedChild F)} {nodes : List Nat} {terminalNodes : List Nat}
  {after : Composition F}

omit [F64 F] in
theorem DefinitionObserverSource.ShownBy.congr {source : DefinitionObserverSource} {shown : OutputSource}
    (h : source.ShownBy made items shown) (same : after.nodeUnknowns = made.nodeUnknowns) : source.ShownBy after items shown := by
  cases source <;> cases shown <;> first | exact h | exact h.elim | skip
  rw [DefinitionObserverSource.ShownBy, same]
  exact h

omit [F64 F] in
theorem Stamps.Shows.grow {builder builder' : DefinitionTemplateBuilder F} {parts : List (Part F)} {value : LocalValueId}
    {source : OutputSource} (h : builder.stamps.Shows parts nodes value source) (grown : builder.values <+: builder'.values) :
    builder'.stamps.Shows parts nodes value source := by
  cases source with
  | part k output => exact h
  | difference positive negative =>
    obtain ⟨isPositive, isNegative, left, right, isDifference, isLeft, isRight⟩ := h
    exact ⟨isPositive, isNegative, left, right, read_grown grown isDifference, read_grown grown isLeft, read_grown grown isRight⟩

/-- Outputs are no matter of the parts. -/
theorem Composing.outputs {parameterCount : Nat} {inside : Nat → Prop}
    (h : Composing registry circuit children parameterCount inside terminalNodes made items nodes) {outputs : List LocalValueId}
    (sound : ({ made.builder with outputs } : DefinitionTemplateBuilder F).Sound) :
    made.Extends { made with builder := { made.builder with outputs } } ∧
      Composing registry circuit children parameterCount inside terminalNodes
        { made with builder := { made.builder with outputs } } items nodes := by
  have extends' : made.Extends { made with builder := { made.builder with outputs } } :=
    ⟨fun _ _ read => read, fun _ _ read => read, rfl, List.prefix_rfl⟩
  have assembled := h.assembled.grow sound List.prefix_rfl (List.append_nil _).symm ⟨rfl, rfl, rfl, rfl⟩
  rw [List.length_nil, List.range'_zero, List.append_nil] at assembled
  exact ⟨extends', assembled, h.onNodes.congr rfl List.prefix_rfl, h.within,
    ⟨h.parameters.length, h.parameters.count, h.parameters.inside, h.parameters.placed⟩, h.states, h.counted,
    fun item member => (h.fits item member).extend extends', h.terminalCount⟩

variable [Field F]

/-- A node that is touched has an unknown. -/
theorem Composing.touched (h : Composing registry circuit children definition.parameters.length
      (definition.Inside partition.index) ((definition.terminalsOf partition.index).map definition.nodeAt) made items nodes)
    (populated : Populated registry latch definition partition made items
      (definition.childPlaces registry circuit partition.index)) {node : NodeId}
    (touches : definition.Touches registry circuit partition.index node) :
    ∃ unknown, made.nodeUnknowns[node.index]? = some (some unknown) := by
  rcases touches with ⟨i, member, isNode⟩ | ⟨place, member, element, child, isElement, isChild, t, isTerminal, isNode⟩
  · obtain ⟨t, read⟩ := List.mem_iff_getElem?.mp member
    refine ⟨⟨t⟩, h.onNodes.exposed t node.index ?_⟩
    rw [List.getElem?_map, read, Option.map_some, DeviceDefinition.nodeAt_eq isNode]
  · obtain ⟨item, isItem, rfl⟩ := List.mem_map.mp (populated.places ▸ member)
    have fits := h.fits item isItem
    obtain rfl := Option.some.inj (fits.element.symm.trans isElement)
    obtain rfl := Option.some.inj (fits.child.symm.trans isChild)
    rw [← (populated.compiles item isItem).terminals] at isTerminal
    obtain ⟨terminal, listed, rfl⟩ := List.mem_map.mp isTerminal
    obtain ⟨i, below, isI⟩ := List.getElem_of_mem listed
    obtain ⟨terminal', unknown, isTerminal', -, node', isNode', known⟩ := related_read fits.terminals
      (fits.terminals.length_eq ▸ below)
    obtain rfl := Option.some.inj ((List.getElem?_eq_some_iff.mpr ⟨below, isI⟩).symm.trans isTerminal')
    obtain rfl := Option.some.inj (isNode.symm.trans isNode')
    exact ⟨unknown, known⟩

/-- An output more shows what an observer of the partition does. -/
structure Observed (registry : DefinitionRegistry F) (definition : DeviceDefinition F) (circuit : Circuit F)
    (children : List (CompiledDefinition F)) (partition : DevicePartitionId) (items : List (PlacedChild F)) (nodes : List Nat)
    (source : DefinitionObserverSource) (before after : Composition F) : Prop where
  composing : Composing registry circuit children definition.parameters.length (definition.Inside partition.index)
    ((definition.terminalsOf partition.index).map definition.nodeAt) after items nodes
  kept : before.Extends after
  nodeUnknowns : after.nodeUnknowns = before.nodeUnknowns
  forwarded : after.forwardedObserverValues = before.forwardedObserverValues
  shown : ∃ value shown, after.builder.outputs = before.builder.outputs ++ [value] ∧ source.ShownBy after items shown ∧
    after.builder.stamps.Shows (items.map PlacedChild.part) nodes value shown

namespace Composition

omit [Field F] in
/-- Whatever the value is, it becomes an output. -/
theorem output_observed (h : Composing registry circuit children definition.parameters.length
      (definition.Inside partition.index) ((definition.terminalsOf partition.index).map definition.nodeAt) made items nodes)
    {j : Nat} (below : j < IdKind.observer.bound) {value : LocalValueId} {builder : DefinitionTemplateBuilder F}
    (sound : builder.Sound) (frame : builder.frame = made.builder.frame)
    (latches : builder.iterationLatches = made.builder.iterationLatches) (grown : made.builder.values <+: builder.values)
    (inside : value.index < builder.values.length) {source : DefinitionObserverSource} {shown : OutputSource}
    (isShown : source.ShownBy made items shown)
    (shows : builder.stamps.Shows (items.map PlacedChild.part) nodes value shown) :
    ((do
      let _ ← onBuilder (output value)
      Call.expect (Id.ofIndex? j) : Compose F DefinitionObserverId) { made with builder }).Meets False
      (fun id after => Id.index id = j ∧ Observed registry definition circuit children partition items nodes source made after)
      fun error _ => error = .idExhausted := by
  have isId : (Id.ofIndex? j : Option DefinitionObserverId) = some ⟨j, below⟩ := Id.ofIndex?_eq_some.mpr rfl
  have composing := h.values sound frame latches grown
  have outputs : builder.outputs = made.builder.outputs := by
    show builder.frame.outputs = made.builder.frame.outputs
    rw [frame]
  refine Call.meets_bind (onBuilder_meets (output_meets sound inside) ?_)
  rintro _ builder' ⟨sound', rfl⟩
  rw [isId]
  obtain ⟨kept, composing'⟩ := composing.outputs sound'
  refine ⟨rfl, composing', (extends_values frame grown).trans kept, rfl, rfl, value, shown, ?_, isShown.congr rfl, shows⟩
  show builder.outputs ++ [value] = _
  rw [outputs]

/-- An observer of the partition is an output more, that shows what the observer does. -/
theorem observer_meets (plan : Composable registry latch definition circuit children partition.index)
    (h : Composing registry circuit children definition.parameters.length (definition.Inside partition.index)
      ((definition.terminalsOf partition.index).map definition.nodeAt) made items nodes)
    (populated : Populated registry latch definition partition made items
      (definition.childPlaces registry circuit partition.index)) {observed : DefinitionObserver} {j : Nat}
    (isObserver : definition.observers[j]? = some observed) (here : observed.partition = partition) :
    (observer (observed, j) made).Meets False
      (fun id after => Id.index id = j ∧
        Observed registry definition circuit children partition items nodes observed.source made after)
      fun error _ => error = .idExhausted := by
  have observes := plan.observers j observed isObserver (congrArg Id.index here)
  have below : j < IdKind.observer.bound := (List.getElem?_eq_some_iff.mp isObserver).1.trans_le plan.bounded.2.2
  unfold observer
  rw [Call.get_bind]
  dsimp only
  cases isKind : observed.source with
  | voltage positive negative =>
    rw [isKind] at observes
    obtain ⟨left, isLeft⟩ := h.touched populated observes.1
    obtain ⟨right, isRight⟩ := h.touched populated observes.2
    obtain ⟨_, readLeft, -⟩ := h.onNodes.bound _ _ isLeft
    obtain ⟨_, readRight, -⟩ := h.onNodes.bound _ _ isRight
    dsimp only
    rw [isLeft, Option.join_some, Call.expect_some_bind, isRight, Option.join_some, Call.expect_some_bind]
    refine Call.meets_bind (onBuilder_meets (voltageDifference_meets h.assembled.sound (List.getElem?_eq_some_iff.mp readLeft).1
      (List.getElem?_eq_some_iff.mp readRight).1) ?_)
    rintro value builder ⟨sound, frame, latches, grown, inside, minuend, subtrahend, isDifference, isMinuend, isSubtrahend⟩
    have isShown : (DefinitionObserverSource.voltage positive negative).ShownBy made items
        (.difference left.index right.index) := ⟨isLeft, isRight⟩
    exact output_observed h below sound frame latches grown inside isShown ⟨(h.onNodes.mem _).mpr ⟨_, isLeft⟩,
      (h.onNodes.mem _).mpr ⟨_, isRight⟩, minuend, subtrahend, isDifference, isMinuend, isSubtrahend⟩
  | current positive negative =>
    rw [isKind] at observes
    exact observes.elim
  | child element inner =>
    rw [isKind] at observes
    obtain ⟨there, child, observed', isElement, isChild, isObserved, isPlace⟩ := observes
    obtain ⟨item, isItem, samePlace⟩ := List.mem_map.mp (populated.places ▸ isPlace)
    obtain ⟨k, atK⟩ := List.mem_iff_getElem?.mp isItem
    have fits := h.fits item isItem
    have compiles := populated.compiles item isItem
    have atElement := fits.element
    rw [samePlace] at atElement
    obtain rfl := Option.some.inj (atElement.symm.trans isElement)
    obtain rfl := Option.some.inj (fits.child.symm.trans isChild)
    have number : Id.index inner ∈ item.compiled.definitionObservers.map Id.index := by
      rw [compiles.observers, samePlace]
      exact DeviceDefinition.mem_observersOf.mpr ⟨observed', isObserved, rfl⟩
    obtain ⟨inner', listed, sameObserver⟩ := List.mem_map.mp number
    obtain rfl : inner' = inner := Id.ext' sameObserver
    obtain ⟨o, isOutput⟩ := List.mem_iff_getElem?.mp listed
    obtain ⟨id, isId, isValue⟩ := populated.forwarded j observed isObserver item isItem o inner' isOutput
      ⟨here, element, isKind, by rw [samePlace]⟩
    dsimp only
    rw [isValue, Option.join_some, Call.expect_some_bind]
    have inside : item.part.placement.value id.index < made.builder.values.length := by
      refine h.assembled.inside item.part (List.mem_map_of_mem isItem) id.index ?_
      rw [fits.stamps]
      exact compiles.sound.stamps.outputs id (List.mem_of_getElem? isId)
    have isShown : (DefinitionObserverSource.child element inner').ShownBy made items (.part k o) :=
      ⟨item, observed', atK, isObserved, samePlace, isOutput⟩
    refine output_observed h below h.assembled.sound rfl rfl List.prefix_rfl inside isShown ⟨item.part, id, ?_, ?_, rfl⟩
    · rw [List.getElem?_map, atK, Option.map_some]
    · rw [fits.stamps]
      exact isId

end Composition

end Observers

end Hynergy
