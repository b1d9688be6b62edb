import Hynergy.Compile.CompositionEnds

/-!
# Partitions of composites

The loops of a composition one after another: the template that is finished at the end relates what the law of the
partition says.
-/

namespace Hynergy

open Lib DefinitionTemplateBuilder

variable {F : Type} [Field F] [F64 F] {registry : DefinitionRegistry F} {latch : F → F → F → Prop}
  {definition : DeviceDefinition F} {circuit : Circuit F} {children : List (CompiledDefinition F)}
  {partition : DevicePartitionId} {offsets : List Nat} {total : Nat} {made : Composition F} {items : List (PlacedChild F)}
  {nodes : List Nat} {uses : StateUses}

/-- The terminals of a partition on the nodes of the definition. -/
abbrev DeviceDefinition.nodesOf (definition : DeviceDefinition F) (partition : Nat) : List Nat :=
  (definition.terminalsOf partition).map definition.nodeAt

/-- What a composition has when its children are placed. -/
structure Furnished (registry : DefinitionRegistry F) (latch : F → F → F → Prop) (definition : DeviceDefinition F)
    (circuit : Circuit F) (children : List (CompiledDefinition F)) (partition : DevicePartitionId) (made : Composition F)
    (items : List (PlacedChild F)) (nodes : List Nat) : Prop where
  composing : Composing registry circuit children definition.parameters.length (definition.Inside partition.index)
    (definition.nodesOf partition.index) made items nodes
  populated : Populated registry latch definition partition made items
    (definition.childPlaces registry circuit partition.index)

/-- The outputs so far show what the observers seen do. -/
structure Showing (made : Composition F) (items : List (PlacedChild F)) (nodes : List Nat)
    (seen : List (DefinitionObserver × Nat)) (sources : List OutputSource) : Prop where
  outputs : List.Forall₂ (fun value source => made.builder.stamps.Shows (items.map PlacedChild.part) nodes value source)
    made.builder.outputs sources
  shown : List.Forall₂ (fun entry source => entry.1.source.ShownBy made items source) seen sources

namespace Composition

/-- Every observer of the partition is an output. -/
theorem observers_meets (plan : Composable registry latch definition circuit children partition.index)
    (h : Furnished registry latch definition circuit children partition made items nodes) (none : made.builder.outputs = []) :
    (Call.pushEach (fun _ entry => observer entry) []
      (definition.observers.zipIdx.filter fun entry => decide (entry.1.partition = partition)) made).Meets False
      (fun ids after => ids.map Id.index = definition.observersOf partition.index ∧
        Furnished registry latch definition circuit children partition after items nodes ∧ made.Extends after ∧
        ∃ sources, Showing after items nodes
          (definition.observers.zipIdx.filter fun entry => decide (entry.1.partition = partition)) sources)
      fun error _ => error = .idExhausted := by
  rw [← observersOf_eq definition partition]
  refine Call.pushEach_meets (fun seen done state => done.map Id.index = seen.map Prod.snd ∧
    Furnished registry latch definition circuit children partition state items nodes ∧ made.Extends state ∧
    ∃ sources, Showing state items nodes seen sources) ?_ ⟨rfl, h, .refl made, [], none ▸ .nil, .nil⟩
  rintro seen ⟨observed, j⟩ rest done state split ⟨numbers, furnished, extends', sources, showing⟩
  obtain ⟨listed, here⟩ := List.mem_filter.mp (split ▸ List.mem_append_right seen List.mem_cons_self)
  refine (observer_meets plan furnished.composing furnished.populated (List.mem_zipIdx_iff_getElem?.mp listed)
    (of_decide_eq_true here)).mono id ?_ fun _ _ failed => failed
  rintro id after ⟨isId, observing⟩
  obtain ⟨value, source, outputs, isShown, shows⟩ := observing.shown
  refine ⟨?_, ⟨observing.composing, furnished.populated.congr observing.forwarded⟩, extends'.trans observing.kept,
    sources ++ [source], ?_, ?_⟩
  · rw [List.map_append, List.map_append, numbers, List.map_singleton, List.map_singleton, isId]
  · rw [outputs]
    exact List.rel_append (showing.outputs.imp fun _ _ shows => shows.grow observing.kept.values) (.cons shows .nil)
  · exact List.rel_append (showing.shown.imp fun _ _ isShown => isShown.congr observing.nodeUnknowns) (.cons isShown .nil)

end Composition

/-! ### The end -/

namespace Furnished

/-- What is to be written is written. -/
theorem finishable (h : Furnished registry latch definition circuit children partition made items nodes)
    (plan : Composable registry latch definition circuit children partition.index)
    (run : elementStateOffsets children = some (offsets, total)) (ordered : (made.definitionStates.map Id.index).Nodup)
    (requires : ∀ s : Nat, hasBit made.builder.stateRequiresWrite s = true → ∃ state, made.definitionStates[s]? = some state ∧
      StateAmong children offsets (definition.childPlaces registry circuit partition.index)
        CompiledPartitionTemplate.definitionStateWrites state.index) : made.builder.Finishable := by
  have assembled := h.composing.assembled
  refine ⟨assembled.sound.stamps, assembled.sound.latched, fun entry member => ?_, fun s unwritten => ?_,
    assembled.sound.registered⟩
  · rw [assembled.latches] at member
    obtain ⟨part, -, listed⟩ := List.mem_flatMap.mp member
    obtain ⟨latch, -, rfl⟩ := List.mem_map.mp listed
    exact Option.some_ne_none _
  · refine Bool.eq_false_iff.mpr fun required => ?_
    obtain ⟨state, isState, among⟩ := requires s required
    obtain ⟨slot, value, here, written⟩ := h.composing.written_slot plan run h.populated among
    have there := h.composing.states _ slot here
    have inside : slot.index < (made.definitionStates.map Id.index).length := by
      obtain ⟨_, read, -⟩ := Option.map_eq_some_iff.mp there
      rw [List.length_map]
      exact (List.getElem?_eq_some_iff.mp read).1
    have same : slot.index = s := by
      refine (List.getElem?_inj inside ordered).mp ?_
      rw [List.getElem?_map, List.getElem?_map, there, isState, Option.map_some]
    rw [same, unwritten] at written
    cases written

/-- The children's partitions, on the nodes of the definition, make up its partition. -/
theorem composed (h : Furnished registry latch definition circuit children partition made items nodes)
    (plan : Composable registry latch definition circuit children partition.index) {sources : List OutputSource}
    (showing : Showing made items nodes
      (definition.observers.zipIdx.filter fun entry => decide (entry.1.partition = partition)) sources) :
    Composed registry circuit children definition partition.index made items nodes sources where
  paired := plan.paired
  places := h.populated.places
  fits := h.composing.fits
  onNodes := h.composing.onNodes
  apart n u read i node part isNode same isPart := h.composing.within n u read i node part isNode same isPart
  parameters := h.composing.parameters
  states := h.composing.states
  counted := by
    rw [← observersOf_eq, List.length_map]
    exact showing.shown.length_eq.symm
  shown o j observer source isO isObserver isSource := by
    rw [← observersOf_eq, List.getElem?_map] at isO
    obtain ⟨⟨observed, j'⟩, isEntry, rfl⟩ := Option.map_eq_some_iff.mp isO
    obtain ⟨entry, source', isEntry', isSource', isShown⟩ := related_read showing.shown (List.getElem?_eq_some_iff.mp isSource).1
    obtain rfl := Option.some.inj (isEntry.symm.trans isEntry')
    obtain rfl := Option.some.inj (isSource.symm.trans isSource')
    have read := List.mem_zipIdx_iff_getElem?.mp (List.mem_filter.mp (List.mem_of_getElem? isEntry)).1
    rwa [Option.some.inj (isObserver.symm.trans read)]

/-- The stamps are those of the children's partitions. -/
theorem madeOf (h : Furnished registry latch definition circuit children partition made items nodes)
    {entries : List (DefinitionObserver × Nat)} {sources : List OutputSource} (showing : Showing made items nodes entries sources) :
    made.builder.stamps.MadeOf (items.map PlacedChild.part) nodes sources := by
  refine h.composing.assembled.madeOf showing.outputs.length_eq fun j value source isValue isSource => ?_
  obtain ⟨value', source', isValue', isSource', shows⟩ := related_read showing.outputs (List.getElem?_eq_some_iff.mp isSource).1
  obtain rfl := Option.some.inj (isValue.symm.trans isValue')
  obtain rfl := Option.some.inj (isSource.symm.trans isSource')
  exact shows

end Furnished

/-- The states of a partition: those that the partitions of its children have. -/
structure StatesListed (definition : DeviceDefinition F) (registry : DefinitionRegistry F) (circuit : Circuit F)
    (partition : DevicePartitionId) (children : List (CompiledDefinition F)) (offsets : List Nat) (made : Composition F) :
    Prop where
  ordered : (made.definitionStates.map Id.index).Nodup
  below : ∀ state ∈ made.definitionStates, state.index < definition.stateCount
  reads : ∀ state ∈ made.definitionStateReads, state.index < definition.stateCount
  writes : ∀ state, state ∈ made.definitionStateWrites ↔ state.index < definition.stateCount ∧
    StateAmong children offsets (definition.childPlaces registry circuit partition.index)
      CompiledPartitionTemplate.definitionStates state.index ∧
    StateAmong children offsets (definition.childPlaces registry circuit partition.index)
      CompiledPartitionTemplate.definitionStateWrites state.index
  requires : ∀ s : Nat, hasBit made.builder.stateRequiresWrite s = true → ∃ state, made.definitionStates[s]? = some state ∧
    StateAmong children offsets (definition.childPlaces registry circuit partition.index)
      CompiledPartitionTemplate.definitionStateWrites state.index

namespace StatesListed

omit [Field F] [F64 F] in
theorem extend (h : StatesListed definition registry circuit partition children offsets made) {after : Composition F}
    (extends' : made.Extends after) : StatesListed definition registry circuit partition children offsets after := by
  have same := extends'.slots
  simp only [Composition.slots, Prod.mk.injEq] at same
  obtain ⟨-, states, reads, writes, requires, -⟩ := same
  refine ⟨?_, ?_, ?_, ?_, ?_⟩
  · rw [states]
    exact h.ordered
  · rw [states]
    exact h.below
  · rw [reads]
    exact h.reads
  · rw [writes]
    exact h.writes
  · rw [requires, states]
    exact h.requires

/-- A partition writes the states that it has to, and no others. -/
theorem written (h : StatesListed definition registry circuit partition children offsets made)
    (furnished : Furnished registry latch definition circuit children partition made items nodes)
    (plan : Composable registry latch definition circuit children partition.index)
    (run : elementStateOffsets children = some (offsets, total)) (state : DefinitionStateId) :
    state ∈ made.definitionStateWrites ↔
      ∃ entry ∈ made.builder.stamps.writes, made.definitionStates[entry.1.index]? = some state := by
  have composing := furnished.composing
  rw [h.writes]
  constructor
  · rintro ⟨-, -, among⟩
    obtain ⟨slot, value, here, written⟩ := composing.written_slot plan run furnished.populated among
    obtain ⟨other, isState, same⟩ := Option.map_eq_some_iff.mp (composing.states _ slot here)
    exact ⟨(slot, value), mem_stamps_writes.mpr written, isState.trans (congrArg some (Id.ext' same))⟩
  · rintro ⟨⟨⟨slot⟩, value⟩, listed, isState⟩
    obtain ⟨item, isItem, state', inStates, inWrites, here⟩ :=
      composing.slot_written furnished.populated (mem_stamps_writes.mp listed)
    obtain ⟨other, isOther, number⟩ := Option.map_eq_some_iff.mp (composing.states _ ⟨slot⟩ here)
    obtain rfl := Option.some.inj (isState.symm.trans isOther)
    have member : item.place ∈ definition.childPlaces registry circuit partition.index :=
      furnished.populated.places ▸ List.mem_map_of_mem isItem
    have isPlace := composing.item_read plan run furnished.populated isItem
    exact ⟨h.below state (List.mem_of_getElem? isState), ⟨item.place, member, _, _, isPlace, state', inStates, number⟩,
      item.place, member, _, _, isPlace, state', inWrites, number⟩

end StatesListed

omit [Field F] [F64 F] in
theorem stamps_writes_nodup (builder : DefinitionTemplateBuilder F) : (builder.stamps.writes.map (·.1.index)).Nodup := by
  have numbered : (builder.stateWrites.zipIdx.map Prod.snd).Nodup := by
    rw [List.zipIdx_map_snd]
    exact List.nodup_range'
  refine List.pairwise_map.mpr (List.pairwise_filterMap.mpr ((List.pairwise_map.mp numbered).imp ?_))
  intro a b different entry isEntry entry' isEntry'
  obtain ⟨_, -, rfl⟩ := Option.map_eq_some_iff.mp isEntry
  obtain ⟨_, -, rfl⟩ := Option.map_eq_some_iff.mp isEntry'
  exact different

/-- What is finished at the end says what the law of the partition does. -/
theorem Furnished.compiles (exact : F64.ExactField F)
    (h : Furnished registry latch definition circuit children partition made items nodes)
    (plan : Composable registry latch definition circuit children partition.index)
    (run : elementStateOffsets children = some (offsets, total)) {sources : List OutputSource}
    (showing : Showing made items nodes
      (definition.observers.zipIdx.filter fun entry => decide (entry.1.partition = partition)) sources)
    (listed : StatesListed definition registry circuit partition children offsets made) {terminals : List TerminalId}
    (isTerminals : terminals.map Id.index = definition.terminalsOf partition.index) {observers : List DefinitionObserverId}
    (isObservers : observers.map Id.index = definition.observersOf partition.index) {template : CompiledDefinitionTemplate F}
    (sound : template.Sound) (same : template.stamps.Same made.builder.stamps)
    (counts : template.stateCount = made.builder.stateWrites.length ∧ template.parameterCount = made.builder.parameterCount ∧
      template.terminalCount = made.builder.terminalCount) :
    CompiledPartitionTemplate.Compiles registry latch definition partition.index
      { definitionTerminals := terminals
        definitionParameters := made.definitionParameters
        definitionStates := made.definitionStates
        definitionStateReads := made.definitionStateReads
        definitionStateWrites := made.definitionStateWrites
        definitionObservers := observers
        template } := by
  have composing := h.composing
  have composed := h.composed plan showing
  have writes : template.stateWrites = made.builder.stamps.writes := same.writes
  have outputs : template.outputs = made.builder.outputs := same.outputs
  refine ⟨sound, isTerminals, isObservers, composing.parameters.inside, ⟨listed.ordered, listed.below⟩, listed.reads, ?_, ?_,
    ⟨?_, ?_, ?_, ?_⟩, fun ports => ?_⟩
  · rw [writes]
    exact listed.written h plan run
  · rw [writes]
    exact stamps_writes_nodup made.builder
  · rw [counts.2.2, composing.terminalCount, List.length_map, ← isTerminals, List.length_map]
  · rw [counts.2.1, composing.parameters.count]
  · rw [counts.1, composing.counted]
  · rw [outputs, showing.outputs.length_eq, composed.counted, ← isObservers, List.length_map]
  · have seen : CompiledPartitionTemplate.ports ⟨terminals, made.definitionParameters, made.definitionStates,
        made.definitionStateReads, made.definitionStateWrites, observers, template⟩ ports =
        Composed.whole definition partition.index made ports := by
      rw [CompiledPartitionTemplate.ports, isTerminals, isObservers]
    rw [seen, same.behaves]
    exact composed.behaves_iff exact plan.body h.populated.compiles (h.madeOf showing) composing.assembled.sound.stamps.earlier

/-! ### From the start to the end -/

/-- Every partition of a child that is mapped to the parent marks its states. -/
theorem Composable.useStates_meets (plan : Composable registry latch definition circuit children partition.index)
    (run : elementStateOffsets children = some (offsets, total)) :
    ∃ uses, (childPartitions children).foldlM (useStates definition.elementPartitions partition children offsets)
        ⟨List.replicate definition.stateCount false, List.replicate definition.stateCount false,
          List.replicate definition.stateCount false⟩ = some uses ∧
      uses.Mark definition.stateCount
        (StateAmong children offsets (definition.childPlaces registry circuit partition.index)
          CompiledPartitionTemplate.definitionStates)
        (StateAmong children offsets (definition.childPlaces registry circuit partition.index)
          CompiledPartitionTemplate.definitionStateReads)
        (StateAmong children offsets (definition.childPlaces registry circuit partition.index)
          CompiledPartitionTemplate.definitionStateWrites) := by
  have blank : StatesMarked (List.replicate definition.stateCount false) definition.stateCount fun _ => False := by
    refine ⟨List.length_replicate, fun i => iff_of_false (fun read => ?_) id⟩
    cases List.eq_of_mem_replicate (List.mem_of_getElem? read)
  have start : StateUses.Mark ⟨List.replicate definition.stateCount false, List.replicate definition.stateCount false,
      List.replicate definition.stateCount false⟩ definition.stateCount _ _ _ := ⟨blank, blank, blank⟩
  have mapped : ∀ entry ∈ circuit.places registry, entry.2 < definition.elementPartitions.length := by
    intro entry member
    have read := List.mem_zipIdx_iff_getElem?.mp member
    rw [plan.layout, Circuit.places, List.length_zipIdx]
    exact (List.getElem?_eq_some_iff.mp read).1
  have given : ∀ place ∈ definition.childPlaces registry circuit partition.index, ∃ compiled offset,
      childPartition children offsets place = some (compiled, offset) ∧
        StatesWithin compiled offset definition.stateCount := by
    intro place member
    obtain ⟨element, child, compiled, isElement, isChild, -, compiles, -, isPlace⟩ :=
      plan.place_read run (DeviceDefinition.mem_places member)
    have within : registry.stateOffset (circuit.elements.take place.1) + registry.statesOf element ≤ _ :=
      stateOffset_le isElement (List.getElem?_eq_some_iff.mp isElement).1
    rw [List.take_length, DefinitionRegistry.statesOf, isChild, Option.map_some, Option.getD_some, ← plan.states] at within
    have below : ∀ s < child.stateCount,
        registry.stateOffset (circuit.elements.take place.1) + s < definition.stateCount := fun s inside => by omega
    refine ⟨compiled, _, isPlace, fun state inStates => below _ (compiles.states.2 state inStates),
      fun state inReads => below _ (compiles.reads state inReads), fun state inWrites => ?_⟩
    obtain ⟨entry, -, isState⟩ := (compiles.writes state).mp inWrites
    exact below _ (compiles.states.2 state (List.mem_of_getElem? isState))
  rw [plan.childPartitions_eq]
  obtain ⟨uses, isUses, marks⟩ := useStates_marks mapped given start
  refine ⟨uses, isUses, ?_⟩
  simp only [false_or] at marks
  exact marks

/-- A partition writes what the partitions of its children do. -/
def CompiledPartitionTemplate.Writes (compiled : CompiledPartitionTemplate F) (registry : DefinitionRegistry F)
    (definition : DeviceDefinition F) (circuit : Circuit F) (children : List (CompiledDefinition F)) (offsets : List Nat)
    (partition : DevicePartitionId) : Prop :=
  ∀ state, state ∈ compiled.definitionStateWrites ↔ Id.index state < definition.stateCount ∧
    StateAmong children offsets (definition.childPlaces registry circuit partition.index)
      CompiledPartitionTemplate.definitionStates (Id.index state) ∧
    StateAmong children offsets (definition.childPlaces registry circuit partition.index)
      CompiledPartitionTemplate.definitionStateWrites (Id.index state)

/-- A template was finished from a composition of the children's partitions. -/
def CompiledPartitionTemplate.ComposedOf (compiled : CompiledPartitionTemplate F) (registry : DefinitionRegistry F)
    (definition : DeviceDefinition F) (circuit : Circuit F) (children : List (CompiledDefinition F)) (partition : Nat) : Prop :=
  ∃ made items nodes sources, Composed registry circuit children definition partition made items nodes sources ∧
    made.builder.stamps.MadeOf (items.map PlacedChild.part) nodes sources ∧
    compiled.template.stamps.Same made.builder.stamps ∧ compiled.definitionParameters = made.definitionParameters ∧
    compiled.definitionStates = made.definitionStates

namespace Composition

/-- Nothing is composed yet. -/
def start (definition : DeviceDefinition F) (circuit : Circuit F) : Composition F where
  nodeUnknowns := List.replicate circuit.nodeCount none
  parameterValues := List.replicate definition.parameters.length none
  localStates := List.replicate definition.stateCount none
  forwardedObserverValues := List.replicate definition.observers.length none

omit [Field F] [F64 F] in
theorem replicate_none {α : Type} {n i : Nat} {value : α} : (List.replicate n (none : Option α))[i]? ≠ some (some value) := by
  intro read
  cases List.eq_of_mem_replicate (List.mem_of_getElem? read)

omit [Field F] in
theorem start_exposing : Exposing registry definition circuit children partition [] (start definition circuit)
    (start definition circuit) := by
  refine ⟨⟨[], ?_, ?_, fun n u read => absurd read replicate_none, ?_, fun i slot read => absurd read replicate_none, rfl,
    by simp, rfl⟩, rfl, fun n u read => absurd read replicate_none, rfl, rfl, rfl⟩
  · exact Assembled.empty sound_new rfl rfl rfl (by simp [start])
  · refine ⟨List.length_replicate, fun u => ?_, fun n m u read => absurd read replicate_none, by simp,
      fun n u read => absurd read replicate_none⟩
    exact iff_of_false (by simp) fun ⟨n, read⟩ => replicate_none read
  · exact ⟨List.length_replicate, rfl, by simp [start], fun p id read => absurd read replicate_none⟩

omit [Field F] [F64 F] in
/-- The slots of the states that the partitions of the children have. -/
theorem Slotted.listed {reads : Nat → Prop} (slotted : made.Slotted uses definition.stateCount definition.stateCount)
    (marks : uses.Mark definition.stateCount
      (StateAmong children offsets (definition.childPlaces registry circuit partition.index)
        CompiledPartitionTemplate.definitionStates) reads
      (StateAmong children offsets (definition.childPlaces registry circuit partition.index)
        CompiledPartitionTemplate.definitionStateWrites)) :
    StatesListed definition registry circuit partition children offsets made ∧
      StatesReady definition registry circuit partition children offsets made := by
  refine ⟨⟨slotted.ordered.imp fun before => before.ne, slotted.below, slotted.reads, fun state => ?_, fun s required => ?_⟩,
    fun place member compiled offset isPlace state inStates => ?_⟩
  · rw [slotted.writes, marks.used.2, marks.writes.2]
  · obtain ⟨state, isState, isWritten⟩ := (slotted.requires s).mp required
    exact ⟨state, isState, (marks.writes.2 _).mp isWritten⟩
  · have isUsed := (marks.used.2 _).mpr ⟨place, member, compiled, offset, isPlace, state, inStates, rfl⟩
    exact slotted.placed _ (marks.used.1 ▸ (List.getElem?_eq_some_iff.mp isUsed).1) isUsed

/-- A partition is composed of the partitions of the children to what its law says; only numbers can be exhausted. -/
theorem compilePartition_meets (exact : F64.ExactField F)
    (plan : Composable registry latch definition circuit children partition.index)
    (run : elementStateOffsets children = some (offsets, total)) {terminals : List TerminalId}
    (isTerminals : terminals.map Id.index = definition.terminalsOf partition.index) :
    (compilePartition definition circuit partition children offsets terminals (start definition circuit)).Meets False
      (fun compiled _ => compiled.Compiles registry latch definition partition.index ∧
        compiled.Writes registry definition circuit children offsets partition ∧
        compiled.ComposedOf registry definition circuit children partition.index)
      fun error _ => error = .idExhausted := by
  have exposes : Exposing registry definition circuit children partition [] (start definition circuit) _ := start_exposing
  unfold compilePartition
  refine Call.meets_bind ((terminals_exposed plan.paired plan.distinct plan.within isTerminals exposes).mono id ?_
    fun _ _ failed => failed)
  rintro _ s₁ exposing
  obtain ⟨nodes, composing₁⟩ := exposing.composing
  obtain ⟨uses, isUses, marks⟩ := plan.useStates_meets run
  rw [isUses, Call.expect_some_bind]
  have slots := exposing.slots
  simp only [Composition.slots, start, Prod.mk.injEq, List.length_nil, List.length_eq_zero_iff] at slots
  obtain ⟨localStates, states, reads, writes, requires, stateWrites⟩ := slots
  have slotted : s₁.Slotted uses definition.stateCount 0 := by
    refine ⟨by rw [localStates, List.length_replicate], by simp, by simp [stateWrites], by simp [states], by simp [states],
      by simp [reads], by simp [writes], ?_⟩
    simp [states, requires, hasBit]
  refine Call.meets_bind ((stateSlots_meets composing₁ slotted marks plan.bounded.1).mono id ?_ fun _ _ failed => failed)
  rintro _ s₂ ⟨composing₂, slotted₂, outputs₂, forwarded₂⟩
  obtain ⟨listed, ready⟩ := slotted₂.listed marks
  have length : s₂.forwardedObserverValues.length = definition.observers.length := by
    rw [forwarded₂, exposing.forwarded]
    exact List.length_replicate
  refine Call.meets_bind ((children_meets plan run composing₂ length ready).mono id ?_ fun _ _ failed => failed)
  rintro _ s₃ ⟨items, nodes', composing₃, populated, extends₃, outputs₃⟩
  have none : s₃.builder.outputs = [] := by
    rw [outputs₃, outputs₂, exposing.outputs]
    rfl
  refine Call.meets_bind ((observers_meets plan ⟨composing₃, populated⟩ none).mono id ?_ fun _ _ failed => failed)
  rintro observers s₄ ⟨isObservers, furnished, extends₄, sources, showing⟩
  have listed₄ := listed.extend (extends₃.trans extends₄)
  have finishable := furnished.finishable plan run listed₄.ordered listed₄.requires
  refine Call.meets_bind (onBuilder_meets ((finish_meets exact finishable).mono id (fun _ _ made => made)
    fun _ _ failed => failed.1) ?_)
  rintro template _ ⟨rfl, -, sound, same, counts⟩
  rw [Call.get_bind]
  exact ⟨furnished.compiles exact plan run showing listed₄ isTerminals isObservers sound same counts, listed₄.writes,
    _, items, nodes', sources, furnished.composed plan showing, furnished.madeOf showing, same, rfl, rfl⟩

end Composition

/-- A partition of a composite is compiled to what its law says; only numbers can be exhausted. -/
theorem compileCompositePartition_meets (exact : F64.ExactField F)
    (plan : Composable registry latch definition circuit children partition.index)
    (run : elementStateOffsets children = some (offsets, total)) :
    (compileCompositePartition definition circuit partition children offsets ()).Meets False
      (fun compiled _ => compiled.Compiles registry latch definition partition.index ∧
        compiled.Writes registry definition circuit children offsets partition ∧
        compiled.ComposedOf registry definition circuit children partition.index)
      fun error _ => error = .template .idExhausted := by
  have bounded : definition.terminalPartitions.length ≤ IdKind.terminal.bound := plan.paired ▸ plan.bounded.2.1
  obtain ⟨terminals, isTerminals, numbers⟩ := definitionTerminals_read partition bounded
  have composes := Composition.compilePartition_meets exact plan run numbers
  unfold Composition.start at composes
  unfold compileCompositePartition
  rw [isTerminals]
  refine Call.meets_bind ?_
  cases result : Composition.compilePartition definition circuit partition children offsets terminals
      { nodeUnknowns := List.replicate circuit.nodeCount none
        parameterValues := List.replicate definition.parameters.length none
        localStates := List.replicate definition.stateCount none
        forwardedObserverValues := List.replicate definition.observers.length none } with
  | ok compiled after =>
    rw [result] at composes
    simp only [Outcome.Meets, Call.expect, result]
    exact composes
  | err error after =>
    rw [result] at composes
    simp only [Outcome.Meets, Call.expect, result]
    exact congrArg _ composes
  | panic =>
    rw [result] at composes
    exact composes.elim

end Hynergy
