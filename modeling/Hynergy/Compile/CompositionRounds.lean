import Hynergy.Compile.CompositionChildren

/-!
# The rounds of a composition

What a round for a partition of a child leaves behind, and from it what all of them do.
-/

namespace Hynergy

open Lib DefinitionTemplateBuilder

variable {F : Type} [Field F] [F64 F] {registry : DefinitionRegistry F} {latch : F → F → F → Prop}
  {definition : DeviceDefinition F} {circuit : Circuit F} {children : List (CompiledDefinition F)}
  {partition : DevicePartitionId} {offsets : List Nat} {total : Nat} {terminalNodes : List Nat} {made : Composition F}
  {items : List (PlacedChild F)} {nodes : List Nat} {places : List (Nat × Nat)}

/-- The partitions of children that were seen are parts, and their outputs are kept where they are forwarded. -/
structure Populated (registry : DefinitionRegistry F) (latch : F → F → F → Prop) (definition : DeviceDefinition F)
    (partition : DevicePartitionId) (made : Composition F) (items : List (PlacedChild F)) (places : List (Nat × Nat)) :
    Prop where
  places : items.map PlacedChild.place = places
  compiles : ∀ item ∈ items, item.compiled.Compiles registry latch item.child item.place.2
  length : made.forwardedObserverValues.length = definition.observers.length
  forwarded : ∀ (j : Nat) parent, definition.observers[j]? = some parent → ∀ item ∈ items, ∀ (o : Nat) observer,
    item.compiled.definitionObservers[o]? = some observer → parent.Forwards partition item.place.1 observer →
      ∃ id, item.compiled.template.outputs[o]? = some id ∧
        made.forwardedObserverValues[j]? = some (some ⟨item.part.placement.value id.index⟩)

/-- The states of the children have slots. -/
def StatesReady (definition : DeviceDefinition F) (registry : DefinitionRegistry F) (circuit : Circuit F)
    (partition : DevicePartitionId) (children : List (CompiledDefinition F)) (offsets : List Nat) (made : Composition F) :
    Prop :=
  ∀ place ∈ definition.childPlaces registry circuit partition.index, ∀ compiled offset,
    childPartition children offsets place = some (compiled, offset) → ∀ state ∈ compiled.definitionStates,
      ∃ slot, made.localStates[offset + Id.index state]? = some (some slot)

theorem Populated.congr (h : Populated registry latch definition partition made items places) {after : Composition F}
    (same : after.forwardedObserverValues = made.forwardedObserverValues) :
    Populated registry latch definition partition after items places := by
  refine ⟨h.places, h.compiles, by rw [same, h.length], ?_⟩
  rw [same]
  exact h.forwarded

namespace Composing

/-- A slot is written by a part that has its state. -/
theorem slot_written (h : Composing registry circuit children definition.parameters.length
      (definition.Inside partition.index) terminalNodes made items nodes)
    (populated : Populated registry latch definition partition made items places) {s : Nat} {value : LocalValueId}
    (written : made.builder.stateWrites[s]? = some (some value)) :
    ∃ item ∈ items, ∃ state ∈ item.compiled.definitionStates, state ∈ item.compiled.definitionStateWrites ∧
      made.localStates[registry.stateOffset (circuit.elements.take item.place.1) + Id.index state]? = some (some ⟨s⟩) := by
  obtain ⟨part, member, listed⟩ := (h.assembled.writes s value).mp written
  obtain ⟨item, isItem, rfl⟩ := List.mem_map.mp member
  obtain ⟨entry, isEntry, same⟩ := List.mem_map.mp listed
  have fits := h.fits item isItem
  have compiles := populated.compiles item isItem
  obtain ⟨-, -, stateCount, -⟩ := compiles.counts
  rw [fits.stamps] at isEntry
  have inStates : entry.1.index < item.part.placement.states.length := by
    rw [← fits.states.length_eq, ← stateCount]
    exact (compiles.sound.stamps.writes entry isEntry).1
  obtain ⟨state, ⟨slot⟩, isState, isSlot, here⟩ := related_read fits.states inStates
  have sameSlot : slot = s := by
    have number := congrArg (fun entry : LocalStateId × LocalValueId => entry.1.index) same
    simpa only [Placement.state, isSlot, Option.map_some, Option.getD_some] using number
  subst sameSlot
  exact ⟨item, isItem, state, List.mem_of_getElem? isState, (compiles.writes state).mpr ⟨entry, isEntry, isState⟩, here⟩

/-- A state of a partition that is not placed yet is not written. -/
theorem unwritten (h : Composing registry circuit children definition.parameters.length
      (definition.Inside partition.index) terminalNodes made items nodes)
    (plan : Composable registry latch definition circuit children partition.index)
    (populated : Populated registry latch definition partition made items places) {place : Nat × Nat}
    (fresh : place ∉ places) {element : Element F} {child : DeviceDefinition F} {compiled : CompiledPartitionTemplate F}
    (isElement : circuit.elements[place.1]? = some element) (isChild : registry.get element.definition = some child)
    (isCompiled : (children[place.1]?.bind fun child => child.partitions[place.2]?) = some compiled)
    (compiles : compiled.Compiles registry latch child place.2) :
    ∀ state ∈ compiled.definitionStateWrites, ∀ slot,
      made.localStates[registry.stateOffset (circuit.elements.take place.1) + Id.index state]? = some (some slot) →
        made.builder.stateWrites[slot.index]? = some none := by
  intro state isWritten slot here
  have global := h.states _ slot here
  obtain ⟨definitionState, isState, _⟩ := Option.map_eq_some_iff.mp global
  have below : slot.index < made.builder.stateWrites.length := h.counted ▸ (List.getElem?_eq_some_iff.mp isState).1
  rw [List.getElem?_eq_getElem below]
  refine congrArg some ?_
  cases written : made.builder.stateWrites[slot.index] with
  | none => rfl
  | some value =>
    -- it would be written by a part of another place with the same state
    exfalso
    have read : made.builder.stateWrites[slot.index]? = some (some value) := by rw [List.getElem?_eq_getElem below, written]
    obtain ⟨item, isItem, state', inStates', isWritten', here'⟩ := h.slot_written populated read
    have fits := h.fits item isItem
    have compiles' := populated.compiles item isItem
    have sum := Option.some.inj (global.symm.trans (h.states _ _ here'))
    obtain ⟨entry, isEntry, isState'⟩ := (compiles.writes state).mp isWritten
    have inChild := compiles.states.2 state (List.mem_of_getElem? isState')
    have inChild' := compiles'.states.2 state' inStates'
    have inElement : Id.index state < registry.statesOf element := by rwa [DefinitionRegistry.statesOf, isChild]
    have inElement' : Id.index state' < registry.statesOf item.element := by rwa [DefinitionRegistry.statesOf, fits.child]
    obtain ⟨samePlace, sameState⟩ := stateOffset_unique isElement fits.element inElement inElement' sum
    obtain rfl : state = state' := Id.ext' sameState
    have isCompiled' := fits.compiled
    rw [← samePlace] at isCompiled'
    obtain ⟨whole, isWhole, isPartition⟩ := Option.bind_eq_some_iff.mp isCompiled
    obtain ⟨whole', isWhole', isPartition'⟩ := Option.bind_eq_some_iff.mp isCompiled'
    obtain rfl := Option.some.inj (isWhole.symm.trans isWhole')
    obtain ⟨_, _, _, atWhole, _, _, compiled', _⟩ := related_read plan.children (List.getElem?_eq_some_iff.mp isWhole).1
    obtain rfl := Option.some.inj (isWhole.symm.trans atWhole)
    have samePartition := compiled'.writers _ _ _ _ isPartition isPartition' state isWritten isWritten'
    exact fresh (populated.places ▸ List.mem_map.mpr ⟨item, isItem, Prod.ext samePlace.symm samePartition.symm⟩)

/-- The partition of a child at its place, as it is looked up. -/
theorem item_read (h : Composing registry circuit children definition.parameters.length
      (definition.Inside partition.index) terminalNodes made items nodes)
    (plan : Composable registry latch definition circuit children partition.index)
    (run : elementStateOffsets children = some (offsets, total))
    (populated : Populated registry latch definition partition made items
      (definition.childPlaces registry circuit partition.index)) {item : PlacedChild F} (isItem : item ∈ items) :
    childPartition children offsets item.place =
      some (item.compiled, registry.stateOffset (circuit.elements.take item.place.1)) := by
  have member : item.place ∈ definition.childPlaces registry circuit partition.index :=
    populated.places ▸ List.mem_map_of_mem isItem
  obtain ⟨_, _, compiled, -, -, isCompiled, -, -, isPlace⟩ := plan.place_read run (DeviceDefinition.mem_places member)
  rw [isPlace, Option.some.inj (isCompiled.symm.trans (h.fits item isItem).compiled)]

/-- A state that a partition of a child writes has a slot, which is written. -/
theorem written_slot (h : Composing registry circuit children definition.parameters.length
      (definition.Inside partition.index) terminalNodes made items nodes)
    (plan : Composable registry latch definition circuit children partition.index)
    (run : elementStateOffsets children = some (offsets, total))
    (populated : Populated registry latch definition partition made items
      (definition.childPlaces registry circuit partition.index)) {i : Nat}
    (among : StateAmong children offsets (definition.childPlaces registry circuit partition.index)
      CompiledPartitionTemplate.definitionStateWrites i) :
    ∃ slot value, made.localStates[i]? = some (some slot) ∧ made.builder.stateWrites[slot.index]? = some (some value) := by
  obtain ⟨place, member, compiled, offset, isPlace, state, isWritten, rfl⟩ := among
  obtain ⟨item, isItem, rfl⟩ := List.mem_map.mp (populated.places ▸ member)
  obtain ⟨rfl, rfl⟩ := Prod.mk.inj (Option.some.inj (isPlace.symm.trans (h.item_read plan run populated isItem)))
  have fits := h.fits item isItem
  obtain ⟨entry, isEntry, isState⟩ := ((populated.compiles item isItem).writes state).mp isWritten
  obtain ⟨state', ⟨slot⟩, isState', isSlot, here⟩ := related_read fits.states
    (fits.states.length_eq ▸ (List.getElem?_eq_some_iff.mp isState).1)
  obtain rfl := Option.some.inj (isState.symm.trans isState')
  refine ⟨⟨slot⟩, ⟨item.part.placement.value entry.2.index⟩, here, ?_⟩
  refine (h.assembled.writes slot _).mpr ⟨item.part, List.mem_map_of_mem isItem, List.mem_map.mpr ⟨entry, ?_, ?_⟩⟩
  · rw [fits.stamps]
    exact isEntry
  · rw [Placement.state, isSlot]
    rfl

omit [Field F] in
/-- What is forwarded is no matter of the parts. -/
theorem forwarding {parameterCount : Nat} {inside : Nat → Prop}
    (h : Composing registry circuit children parameterCount inside terminalNodes made items nodes)
    (values : List (Option LocalValueId)) : made.Extends { made with forwardedObserverValues := values } ∧
      Composing registry circuit children parameterCount inside terminalNodes
        { made with forwardedObserverValues := values } items nodes := by
  have extends' : made.Extends { made with forwardedObserverValues := values } :=
    ⟨fun _ _ read => read, fun _ _ read => read, rfl, List.prefix_rfl⟩
  exact ⟨extends', h.assembled, h.onNodes.congr rfl List.prefix_rfl, h.within,
    ⟨h.parameters.length, h.parameters.count, h.parameters.inside, h.parameters.placed⟩, h.states, h.counted,
    fun item member => (h.fits item member).extend extends', h.terminalCount⟩

end Composing

namespace Composition

/-- A partition of a child that is mapped to the parent is a part more. -/
theorem place_meets (plan : Composable registry latch definition circuit children partition.index)
    (run : elementStateOffsets children = some (offsets, total))
    (h : Composing registry circuit children definition.parameters.length (definition.Inside partition.index) terminalNodes
      made items nodes)
    (populated : Populated registry latch definition partition made items places)
    (ready : StatesReady definition registry circuit partition children offsets made) {entry : (Nat × Nat) × Nat}
    (member : entry.1 ∈ definition.childPlaces registry circuit partition.index) (fresh : entry.1 ∉ places)
    (mapped : definition.elementPartitions[entry.2]? = some partition) :
    (child definition circuit partition children offsets entry made).Meets False
      (fun _ after => ∃ items' nodes', Composing registry circuit children definition.parameters.length
          (definition.Inside partition.index) terminalNodes after items' nodes' ∧
        Populated registry latch definition partition after items' (places ++ [entry.1]) ∧ made.Extends after ∧
        after.builder.outputs = made.builder.outputs)
      fun error _ => error = .idExhausted := by
  obtain ⟨element, there, compiled, isElement, isChild, isCompiled, compiles, parameterCount, isPlace⟩ :=
    plan.place_read run (DeviceDefinition.mem_places member)
  obtain ⟨terminalCount, parameterCount', stateCount, outputCount⟩ := compiles.counts
  unfold child
  rw [mapped, Call.expect_some_bind, if_neg (not_not.mpr rfl), isElement, Call.expect_some_bind, isPlace,
    Call.expect_some_bind]
  refine Call.meets_bind ((terminals_meets h fun terminal isTerminal => ?_).mono id ?_ fun _ _ failed => failed)
  · have number : Id.index terminal ∈ there.terminalsOf entry.1.2 := compiles.terminals ▸ List.mem_map_of_mem isTerminal
    exact plan.terminals entry.1 member element there isElement isChild _ number
  rintro terminals s₁ ⟨nodes', composing₁, extends₁, outputs₁, forwarded₁, onTerminals⟩
  refine Call.meets_bind ((parameters_meets composing₁ fun parameter isParameter => ?_).mono id ?_ fun _ _ failed => failed)
  · have below : Id.index parameter < element.parameters.length := parameterCount ▸ compiles.parameters parameter isParameter
    refine ⟨_, List.getElem?_eq_getElem below, fun id same => ?_⟩
    exact plan.parameters element (List.mem_of_getElem? isElement) id (same ▸ List.getElem_mem below)
  rintro parameters s₂ ⟨composing₂, extends₂, outputs₂, forwarded₂, onParameters⟩
  have extends₀ := extends₁.trans extends₂
  have states : ∀ state ∈ compiled.definitionStates, ∃ slot,
      s₂.localStates[registry.stateOffset (circuit.elements.take entry.1.1) + Id.index state]? = some (some slot) := by
    rw [extends₀.localStates]
    exact ready entry.1 member compiled _ isPlace
  obtain ⟨slots, isSlots, onStates⟩ := states_read states
  rw [Call.get_bind, isSlots, Call.expect_some_bind]
  have populated₂ := populated.congr (forwarded₂.trans forwarded₁)
  have fits : ∀ unknowns values, PlacedChild.Fits registry circuit children s₂ ⟨entry.1, element, there, compiled,
      ⟨compiled.template.stamps, ⟨terminals, parameters, slots, unknowns, values⟩⟩⟩ := fun unknowns values =>
    ⟨isElement, isChild, isCompiled, rfl, onTerminals.imp fun _ _ ⟨node, isNode, known⟩ =>
      ⟨node, isNode, extends₂.nodes _ _ known⟩, onParameters, onStates⟩
  refine Call.meets_bind ((composing₂.instantiate_meets fits compiles
    (composing₂.unwritten plan populated₂ fresh isElement isChild isCompiled compiles)).mono id ?_ fun _ _ failed => failed)
  rintro outputs s₃ ⟨part, isPart, composing₃, extends₃, outputs₃, forwarded₃, rfl⟩
  have length₃ : s₃.forwardedObserverValues.length = definition.observers.length := by rw [forwarded₃, populated₂.length]
  have firsts : (compiled.definitionObservers.zip
      (compiled.template.outputs.map fun output => (⟨part.placement.value output.index⟩ : LocalValueId))).map Prod.fst =
      compiled.definitionObservers := List.map_fst_zip (by rw [List.length_map, outputCount])
  have distinct : compiled.definitionObservers.Nodup := List.Nodup.of_map _ compiles.observers_nodup
  refine (forward_meets length₃ (by rwa [firsts])).mono id ?_ fun _ _ failed => failed
  rintro _ after forwarded
  obtain ⟨kept, composing⟩ := composing₃.forwarding after.forwardedObserverValues
  rw [← forwarded.same] at kept composing
  refine ⟨_, nodes', composing, ⟨?_, ?_, forwarded.length.trans length₃, ?_⟩, (extends₀.trans extends₃).trans kept, ?_⟩
  · rw [List.map_append, populated.places]
    rfl
  · intro item isItem
    rcases List.mem_append.mp isItem with earlier | last
    · exact populated.compiles item earlier
    · rw [List.mem_singleton.mp last]
      exact compiles
  · intro j parent isParent item isItem o observer isObserver forwards
    have below := (List.getElem?_eq_some_iff.mp isParent).1
    rcases List.mem_append.mp isItem with earlier | last
    · obtain ⟨id, isId, value⟩ := populated₂.forwarded j parent isParent item earlier o observer isObserver forwards
      refine ⟨id, isId, ?_⟩
      rw [forwarded.kept j, forwarded₃, value]
      -- the observer is of one partition of the element
      rintro _ ⟨⟨observer', value'⟩, isOutput, -, parent', isParent', forwards'⟩
      obtain rfl := Option.some.inj (isParent.symm.trans isParent')
      obtain ⟨-, there', isSource, sameElement⟩ := forwards
      obtain ⟨-, there'', isSource', sameElement'⟩ := forwards'
      obtain ⟨rfl, rfl⟩ := DefinitionObserverSource.child.inj (isSource.symm.trans isSource')
      have fits' := h.fits item earlier
      have samePlace : entry.1.1 = item.place.1 := sameElement'.symm.trans sameElement
      obtain rfl := Option.some.inj (isElement.symm.trans (samePlace ▸ fits'.element))
      obtain rfl := Option.some.inj (isChild.symm.trans fits'.child)
      have here : Id.index observer ∈ item.child.observersOf entry.1.2 :=
        compiles.observers ▸ List.mem_map_of_mem (List.of_mem_zip isOutput).1
      have elsewhere : Id.index observer ∈ item.child.observersOf item.place.2 :=
        (populated.compiles item earlier).observers ▸ List.mem_map_of_mem (List.mem_of_getElem? isObserver)
      obtain ⟨observed, isObserved, inPartition⟩ := DeviceDefinition.mem_observersOf.mp here
      obtain ⟨observed', isObserved', inPartition'⟩ := DeviceDefinition.mem_observersOf.mp elsewhere
      obtain rfl := Option.some.inj (isObserved.symm.trans isObserved')
      refine fresh (populated.places ▸ List.mem_map.mpr ⟨item, earlier, ?_⟩)
      exact Prod.ext samePlace.symm (inPartition'.symm.trans inPartition)
    · obtain rfl := List.mem_singleton.mp last
      have inOutputs : o < compiled.template.outputs.length := outputCount ▸ (List.getElem?_eq_some_iff.mp isObserver).1
      refine ⟨_, List.getElem?_eq_getElem inOutputs, forwarded.set j below _ ⟨(observer, _), ?_, rfl, parent, isParent, forwards⟩⟩
      refine List.mem_of_getElem? (i := o) ?_
      rw [List.getElem?_zip_eq_some]
      exact ⟨isObserver, by rw [List.getElem?_map, List.getElem?_eq_getElem inOutputs]; rfl⟩
  · have same : after.builder.outputs = s₃.builder.outputs := by rw [forwarded.same]
    rw [same, outputs₃, outputs₂, outputs₁]

/-- Every partition of a child that is mapped to the parent becomes a part. -/
theorem children_meets (plan : Composable registry latch definition circuit children partition.index)
    (run : elementStateOffsets children = some (offsets, total))
    (h : Composing registry circuit children definition.parameters.length (definition.Inside partition.index) terminalNodes
      made [] nodes)
    (length : made.forwardedObserverValues.length = definition.observers.length)
    (ready : StatesReady definition registry circuit partition children offsets made) :
    ((childPartitions children).forM (child definition circuit partition children offsets) made).Meets False
      (fun _ after => ∃ items nodes', Composing registry circuit children definition.parameters.length
          (definition.Inside partition.index) terminalNodes after items nodes' ∧
        Populated registry latch definition partition after items
          (definition.childPlaces registry circuit partition.index) ∧ made.Extends after ∧
        after.builder.outputs = made.builder.outputs)
      fun error _ => error = .idExhausted := by
  have layout : mappedPlaces definition.elementPartitions partition.index (circuit.places registry) =
      definition.childPlaces registry circuit partition.index := rfl
  rw [plan.childPartitions_eq]
  refine Call.forM_meets (fun seen after => ∃ items nodes', Composing registry circuit children
      definition.parameters.length (definition.Inside partition.index) terminalNodes after items nodes' ∧
    Populated registry latch definition partition after items
      (mappedPlaces definition.elementPartitions partition.index seen) ∧ made.Extends after ∧
    after.builder.outputs = made.builder.outputs) ?_ ?_
  · rintro seen entry rest state split ⟨items, nodes', composing, populated, extends', outputs⟩
    have inside : entry.2 < definition.elementPartitions.length := by
      have listed : entry ∈ circuit.places registry := split ▸ List.mem_append_right _ List.mem_cons_self
      have read := List.mem_zipIdx_iff_getElem?.mp listed
      rw [plan.layout, Circuit.places, List.length_zipIdx]
      exact (List.getElem?_eq_some_iff.mp read).1
    have isMapped := List.getElem?_eq_getElem inside
    rw [mappedPlaces_append]
    by_cases here : definition.elementPartitions[entry.2] = partition
    · rw [here] at isMapped
      have mapped : definition.elementPartitions[entry.2]?.map Id.index = some partition.index := by rw [isMapped, Option.map_some]
      have all := definition.childPlaces_nodup registry circuit partition.index
      have parts : definition.childPlaces registry circuit partition.index =
          mappedPlaces definition.elementPartitions partition.index seen ++
            entry.1 :: mappedPlaces definition.elementPartitions partition.index rest := by
        rw [← layout, ← split, mappedPlaces_append, mappedPlaces_here mapped]
      have member : entry.1 ∈ definition.childPlaces registry circuit partition.index :=
        parts ▸ List.mem_append_right _ List.mem_cons_self
      have fresh : entry.1 ∉ mappedPlaces definition.elementPartitions partition.index seen := fun earlier => by
        rw [parts, List.nodup_append] at all
        exact all.2.2 _ earlier _ List.mem_cons_self rfl
      have ready' : StatesReady definition registry circuit partition children offsets state := by
        intro place isPlace compiled offset isChild state' isState
        rw [extends'.localStates]
        exact ready place isPlace compiled offset isChild state' isState
      refine (place_meets plan run composing populated ready' member fresh isMapped).mono id ?_ fun _ _ failed => failed
      rintro _ after ⟨items', nodes'', composing', populated', further, outputs'⟩
      rw [mappedPlaces_here mapped]
      exact ⟨items', nodes'', composing', populated', extends'.trans further, outputs'.trans outputs⟩
    · have elsewhere : definition.elementPartitions[entry.2]?.map Id.index ≠ some partition.index := by
        rw [isMapped]
        exact fun same => here (Id.ext' (Option.some.inj same))
      have skips : child definition circuit partition children offsets entry state = .ok () state := by
        unfold child
        rw [isMapped, Call.expect_some_bind, if_pos here]
        rfl
      rw [skips, mappedPlaces_elsewhere elsewhere]
      refine ⟨items, nodes', composing, ?_, extends', outputs⟩
      rw [show mappedPlaces definition.elementPartitions partition.index [] = [] from rfl, List.append_nil]
      exact populated
  · exact ⟨[], nodes, h, ⟨rfl, by simp, length, by simp⟩, .refl made, rfl⟩

end Composition

end Hynergy
