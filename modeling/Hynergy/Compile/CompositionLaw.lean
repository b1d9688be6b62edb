import Hynergy.Compile.Assembly
import Hynergy.Compile.DefinitionLaw
import Hynergy.Compile.Definitions

/-!
# The law of a composition

What a composition holds at its end: parts that are the partitions of the children, on the unknowns of the nodes of the
partition. It then behaves as the law of the partition says.
-/

namespace Hynergy

open Lib DefinitionTemplateBuilder

variable {F : Type}

/-! ### What a partition exposes -/

namespace DeviceDefinition

def terminalsOf (definition : DeviceDefinition F) (partition : Nat) : List Nat :=
  places (fun part => decide (Id.index part = partition)) definition.terminalPartitions

def observersOf (definition : DeviceDefinition F) (partition : Nat) : List Nat :=
  places (fun observer => decide (observer.partition.index = partition)) definition.observers

def nodeAt (definition : DeviceDefinition F) (terminal : Nat) : Nat :=
  (definition.terminals[terminal]?.map Id.index).getD 0

variable {definition : DeviceDefinition F} {partition : Nat}

theorem mem_terminalsOf {t : Nat} : t ∈ definition.terminalsOf partition ↔
    ∃ part, definition.terminalPartitions[t]? = some part ∧ Id.index part = partition := by
  simp [terminalsOf, mem_places]

theorem mem_observersOf {o : Nat} : o ∈ definition.observersOf partition ↔
    ∃ observer, definition.observers[o]? = some observer ∧ observer.partition.index = partition := by
  simp [observersOf, mem_places]

theorem nodeAt_eq {t : Nat} {node : NodeId} (read : definition.terminals[t]? = some node) : definition.nodeAt t = node.index := by
  rw [nodeAt, read]
  rfl

end DeviceDefinition

namespace CompiledPartitionTemplate

/-- The ports of a partition, among those of the definition. -/
def ports (self : CompiledPartitionTemplate F) (ports : Ports F) : Ports F :=
  ports.restrict (self.definitionTerminals.map Id.index) (self.definitionParameters.map Id.index)
    (self.definitionStates.map Id.index) (self.definitionObservers.map Id.index)

/-- A partition was compiled to what its law says. -/
structure Compiles [Field F] [F64 F] (registry : DefinitionRegistry F) (latch : F → F → F → Prop)
    (definition : DeviceDefinition F) (partition : Nat) (compiled : CompiledPartitionTemplate F) : Prop where
  sound : compiled.template.Sound
  terminals : compiled.definitionTerminals.map Id.index = definition.terminalsOf partition
  observers : compiled.definitionObservers.map Id.index = definition.observersOf partition
  parameters : ∀ parameter ∈ compiled.definitionParameters, parameter.index < definition.parameters.length
  states : (compiled.definitionStates.map Id.index).Nodup ∧
    ∀ state ∈ compiled.definitionStates, state.index < definition.stateCount
  reads : ∀ state ∈ compiled.definitionStateReads, state.index < definition.stateCount
  writes : ∀ state, state ∈ compiled.definitionStateWrites ↔
    ∃ entry ∈ compiled.template.stateWrites, compiled.definitionStates[entry.1.index]? = some state
  written : (compiled.template.stateWrites.map (·.1.index)).Nodup
  counts : compiled.template.terminalCount = compiled.definitionTerminals.length ∧
    compiled.template.parameterCount = compiled.definitionParameters.length ∧
    compiled.template.stateCount = compiled.definitionStates.length ∧
    compiled.template.outputs.length = compiled.definitionObservers.length
  law : ∀ ports, compiled.template.stamps.Behaves latch (compiled.ports ports) ↔
    definition.PartitionLaw registry latch partition ports

end CompiledPartitionTemplate

/-! ### What a composition holds -/

namespace Composition

/-- The nodes that have unknowns: those of the terminals first, and then others. -/
structure NodesPlaced (terminalNodes : List Nat) (nodeCount : Nat) (made : Composition F) (nodes : List Nat) : Prop where
  length : made.nodeUnknowns.length = nodeCount
  mem : ∀ u, u ∈ nodes ↔ ∃ n : Nat, made.nodeUnknowns[n]? = some (some ⟨u⟩)
  distinct : ∀ (n n' : Nat) u, made.nodeUnknowns[n]? = some (some u) → made.nodeUnknowns[n']? = some (some u) → n = n'
  exposed : ∀ (t : Nat) n, terminalNodes[t]? = some n → made.nodeUnknowns[n]? = some (some ⟨t⟩)
  bound : ∀ (n : Nat) u, made.nodeUnknowns[n]? = some (some u) →
    ∃ info, made.builder.unknowns[u.index]? = some info ∧ ∀ t, info.terminal? = some t ↔ terminalNodes[t]? = some n

/-- What was made for the value of an element's parameter. -/
def Stands (made : Composition F) (id : LocalValueId) : ValueRef F → Prop
  | .literal value => made.builder.stamps.nodes[id.index]? = some (.constant value)
  | .parameter parameter => made.parameterValues[parameter.index]? = some (some id)

/-- The parameters that are passed on. -/
structure ParametersPlaced (parameterCount : Nat) (made : Composition F) : Prop where
  length : made.parameterValues.length = parameterCount
  count : made.builder.parameterCount = made.definitionParameters.length
  inside : ∀ parameter ∈ made.definitionParameters, parameter.index < parameterCount
  placed : ∀ (p : Nat) id, made.parameterValues[p]? = some (some id) → ∃ j : Nat,
    made.definitionParameters[j]?.map Id.index = some p ∧ made.builder.stamps.nodes[id.index]? = some (.parameter ⟨j⟩)

/-- The slots are in the order of the states. -/
def StatesPlaced (made : Composition F) : Prop :=
  ∀ (i : Nat) slot, made.localStates[i]? = some (some slot) → made.definitionStates[slot.index]?.map Id.index = some i

end Composition

/-- A partition of a child at its place. -/
structure PlacedChild (F : Type) where
  place : Nat × Nat
  element : Element F
  child : DeviceDefinition F
  compiled : CompiledPartitionTemplate F
  part : Part F

/-- The element's partition is where the composition has the nodes, the values and the slots of the element. -/
structure PlacedChild.Fits (registry : DefinitionRegistry F) (circuit : Circuit F) (children : List (CompiledDefinition F))
    (made : Composition F) (item : PlacedChild F) : Prop where
  element : circuit.elements[item.place.1]? = some item.element
  child : registry.get item.element.definition = some item.child
  compiled : (children[item.place.1]?.bind fun child => child.partitions[item.place.2]?) = some item.compiled
  stamps : item.part.stamps = item.compiled.template.stamps
  terminals : List.Forall₂ (fun terminal unknown => ∃ node, item.element.terminals[Id.index terminal]? = some node ∧
    made.nodeUnknowns[node.index]? = some (some unknown)) item.compiled.definitionTerminals item.part.placement.terminals
  parameters : List.Forall₂ (fun parameter id => ∃ value, item.element.parameters[Id.index parameter]? = some value ∧
    made.Stands id value) item.compiled.definitionParameters item.part.placement.parameters
  states : List.Forall₂ (fun state slot => made.localStates[registry.stateOffset (circuit.elements.take item.place.1) +
    Id.index state]? = some (some slot)) item.compiled.definitionStates item.part.placement.states

/-! ### What a child sees -/

/-- Lists that are related are so place by place. -/
theorem related_read {α β : Type} {R : α → β → Prop} {xs : List α} {ys : List β} (related : List.Forall₂ R xs ys) {i : Nat}
    (below : i < ys.length) : ∃ x y, xs[i]? = some x ∧ ys[i]? = some y ∧ R x y := by
  have inside : i < xs.length := related.length_eq ▸ below
  exact ⟨_, _, List.getElem?_eq_getElem inside, List.getElem?_eq_getElem below, related.get inside below⟩

section Children

variable [Field F] [F64 F] {registry : DefinitionRegistry F} {latch : F → F → F → Prop} {circuit : Circuit F}
  {children : List (CompiledDefinition F)} {made : Composition F} {item : PlacedChild F} {ports full : Ports F}
  {parameterCount : Nat} {terminals observers : List Nat} {voltage voltage' : Nat → F}

omit [F64 F] in
/-- What was made for a value is worth the value. -/
theorem Composition.ParametersPlaced.argument_eq (placed : made.ParametersPlaced parameterCount) {value : ValueRef F}
    {id : LocalValueId} (stands : made.Stands id value) (states : List Nat) :
    argument made.builder.stamps.nodes (ports.restrict terminals (made.definitionParameters.map Id.index) states observers)
      id.index = value.valueIn ports.parameter := by
  cases value with
  | literal c =>
    have read : made.builder.stamps.nodes[id.index]? = some (.constant c) := stands
    rw [argument, read]
    rfl
  | parameter parameter =>
    obtain ⟨j, isParameter, read⟩ := placed.placed _ id stands
    rw [argument, read]
    simp only [Ports.restrict, List.getElem?_map, isParameter, Option.getD_some]
    rfl

/-- What is seen of the definition is seen of the composition. -/
theorem PlacedChild.Fits.sees (fits : item.Fits registry circuit children made)
    (compiles : item.compiled.Compiles registry latch item.child item.place.2)
    (parameters : made.ParametersPlaced parameterCount) (states : made.StatesPlaced)
    (nodes : ∀ (n : Nat) u, made.nodeUnknowns[n]? = some (some u) → voltage' u.index = voltage n)
    (sees : item.element.Sees item.child (registry.stateOffset (circuit.elements.take item.place.1)) ports voltage full)
    (terminals observers : List Nat) : item.part.Sees made.builder.stamps.nodes (ports.restrict terminals
      (made.definitionParameters.map Id.index) (made.definitionStates.map Id.index) observers) voltage'
      (item.compiled.ports full) := by
  refine ⟨sees.timestep, fun i below => ?_, fun i below => ?_, fun i below => ?_⟩
  · obtain ⟨parameter, id, isParameter, isValue, value, given, stands⟩ := related_read fits.parameters below
    have here : item.part.placement.parameter i = id.index := by simp [Placement.parameter, isValue]
    rw [here, parameters.argument_eq stands, ← sees.parameters _ value given]
    simp [CompiledPartitionTemplate.ports, Ports.restrict, isParameter]
  · obtain ⟨state, slot, isState, isSlot, here⟩ := related_read fits.states below
    have place : item.part.placement.state i = slot.index := by simp [Placement.state, isSlot]
    obtain ⟨now, next⟩ := sees.states state.index (compiles.states.2 state (List.mem_of_getElem? isState))
    have global := states _ slot here
    simp only [CompiledPartitionTemplate.ports, Ports.restrict, List.getElem?_map, isState, place, global, Option.map_some,
      Option.getD_some, now, next, and_self]
  · obtain ⟨terminal, unknown, isTerminal, isUnknown, node, given, here⟩ := related_read fits.terminals below
    have place : item.part.placement.terminal i = unknown.index := by simp [Placement.terminal, isUnknown]
    rw [place, nodes _ unknown here, ← sees.terminals _ node given]
    simp [CompiledPartitionTemplate.ports, Ports.restrict, isTerminal]

omit [F64 F] in
/-- What a part sees is determined. -/
theorem Part.Sees.agree {part : Part F} {nodes : List (LocalValueNode F)} {inner inner' : Ports F}
    (sees : part.Sees nodes ports voltage inner) (sees' : part.Sees nodes ports voltage inner') (outputs : Nat)
    (currents : ∀ t < part.placement.terminals.length, inner.current t = inner'.current t)
    (observed : ∀ o < outputs, inner.observed o = inner'.observed o) :
    inner.Agree inner' part.placement.parameters.length part.placement.states.length part.placement.terminals.length outputs where
  timestep := sees.timestep.trans sees'.timestep.symm
  parameter p below := (sees.parameters p below).trans (sees'.parameters p below).symm
  state s below := ⟨(sees.states s below).1.trans (sees'.states s below).1.symm,
    (sees.states s below).2.trans (sees'.states s below).2.symm⟩
  terminal t below := ⟨(sees.terminals t below).trans (sees'.terminals t below).symm, currents t below⟩
  observed := observed

/-- What an element's partition sees where its part sees the inner ports. -/
def PlacedChild.spread (item : PlacedChild F) (offset : Nat) (ports : Ports F) (voltage : Nat → F) (inner : Ports F) :
    Ports F where
  parameter p := (item.element.parameters[p]?.map (ValueRef.valueIn ports.parameter)).getD 0
  timestep := ports.timestep
  state s := ports.state (offset + s)
  next s := ports.next (offset + s)
  voltage t := (item.element.terminals[t]?.map fun node => voltage (Id.index node)).getD 0
  current t := inner.current ((item.compiled.definitionTerminals.map Id.index).idxOf t)
  observed o := inner.observed ((item.compiled.definitionObservers.map Id.index).idxOf o)

omit [F64 F] in
theorem PlacedChild.spread_sees (item : PlacedChild F) (offset : Nat) (ports : Ports F) (voltage : Nat → F) (inner : Ports F) :
    item.element.Sees item.child offset ports voltage (item.spread offset ports voltage inner) where
  timestep := rfl
  parameters i value read := by simp [PlacedChild.spread, read]
  states s _ := ⟨rfl, rfl⟩
  terminals i node read := by simp [PlacedChild.spread, read]

omit [F64 F] in
/-- The current into a partition of an element, terminal by terminal. -/
theorem Element.inflow_terminals (element : Element F) (child : DeviceDefinition F) (partition : Nat) (full : Ports F) (n : Nat) :
    element.inflow child partition full n = ((child.terminalsOf partition).map fun t =>
      if element.terminals[t]?.map Id.index = some n then full.current t else 0).sum := by
  have general : ∀ entries : List (DevicePartitionId × Nat), (entries.map fun entry =>
      if entry.1.index = partition ∧ element.terminals[entry.2]?.map Id.index = some n then full.current entry.2 else 0).sum =
      (((entries.filter fun entry => decide (Id.index entry.1 = partition)).map Prod.snd).map fun t =>
        if element.terminals[t]?.map Id.index = some n then full.current t else 0).sum := by
    intro entries
    induction entries with
    | nil => rfl
    | cons entry entries ih =>
      rw [List.map_cons, List.sum_cons, ih, List.filter_cons]
      by_cases here : entry.1.index = partition
      · rw [if_pos (decide_eq_true here), List.map_cons, List.map_cons, List.sum_cons]
        simp only [here, true_and]
      · rw [if_neg fun both => here both.1, if_neg fun yes => here (of_decide_eq_true yes), zero_add]
  exact general _

omit [F64 F] in
theorem Part.inflow_congr {part : Part F} {inner inner' : Ports F} {u : Nat}
    (currents : ∀ t < part.placement.terminals.length, inner.current t = inner'.current t) :
    part.inflow inner u = part.inflow inner' u := by
  unfold Part.inflow total
  congr 1
  refine List.map_congr_left fun entry member => ?_
  dsimp only
  rw [currents _ (List.getElem?_eq_some_iff.mp (List.mem_zipIdx_iff_getElem?.mp member)).1]

/-- The current at a node's unknown is that at the node. -/
theorem PlacedChild.Fits.inflow_eq (fits : item.Fits registry circuit children made)
    (compiles : item.compiled.Compiles registry latch item.child item.place.2)
    (distinct : ∀ (n n' : Nat) u, made.nodeUnknowns[n]? = some (some u) → made.nodeUnknowns[n']? = some (some u) → n = n')
    {n u : Nat} (here : made.nodeUnknowns[n]? = some (some ⟨u⟩)) :
    item.part.inflow (item.compiled.ports full) u = item.element.inflow item.child item.place.2 full n := by
  rw [Element.inflow_terminals, ← compiles.terminals, Part.inflow, total]
  congr 1
  refine List.ext_getElem (by simp [fits.terminals.length_eq]) fun t left right => ?_
  have below : t < item.part.placement.terminals.length := by simpa using left
  obtain ⟨terminal, unknown, isTerminal, isUnknown, node, given, there⟩ := related_read fits.terminals below
  obtain ⟨inside, atTerminal⟩ := List.getElem?_eq_some_iff.mp isTerminal
  obtain ⟨_, atUnknown⟩ := List.getElem?_eq_some_iff.mp isUnknown
  have same : unknown.index = u ↔ node.index = n := by
    constructor
    · rintro rfl
      exact distinct _ _ _ there here
    · rintro rfl
      rw [there] at here
      rw [Option.some.inj (Option.some.inj here)]
  simp only [List.getElem_map, List.getElem_zipIdx, Nat.zero_add, atTerminal, atUnknown, given, Option.map_some,
    Option.some.injEq, decide_eq_true_eq, same]
  simp [CompiledPartitionTemplate.ports, Ports.restrict, inside, atTerminal]

/-- No current flows at a node without an unknown. -/
theorem PlacedChild.Fits.inflow_unplaced (fits : item.Fits registry circuit children made)
    (compiles : item.compiled.Compiles registry latch item.child item.place.2) {n : Nat}
    (absent : ∀ u, made.nodeUnknowns[n]? ≠ some (some u)) : item.element.inflow item.child item.place.2 full n = 0 := by
  rw [Element.inflow_terminals, ← compiles.terminals]
  apply List.sum_eq_zero
  intro amount member
  obtain ⟨t, there, rfl⟩ := List.mem_map.mp member
  obtain ⟨terminal, listed, rfl⟩ := List.mem_map.mp there
  obtain ⟨i, below, isTerminal⟩ := List.getElem_of_mem listed
  obtain ⟨terminal', unknown, isTerminal', -, node, given, here⟩ := related_read fits.terminals
    (fits.terminals.length_eq ▸ below)
  obtain rfl := Option.some.inj ((List.getElem?_eq_some_iff.mpr ⟨below, isTerminal⟩).symm.trans isTerminal')
  rw [given, Option.map_some, if_neg]
  intro same
  exact absent unknown (Option.some.inj same ▸ here)

omit [F64 F] in
theorem PlacedChild.spread_current (distinct : (item.compiled.definitionTerminals.map Id.index).Nodup) {offset : Nat}
    {inner : Ports F} {t : Nat} (below : t < item.compiled.definitionTerminals.length) :
    inner.current t = (item.compiled.ports (item.spread offset ports voltage inner)).current t := by
  have inside : t < (item.compiled.definitionTerminals.map Id.index).length := by rwa [List.length_map]
  simp only [CompiledPartitionTemplate.ports, Ports.restrict, PlacedChild.spread, List.getElem?_eq_getElem inside,
    Option.getD_some, distinct.idxOf_getElem t inside]

omit [F64 F] in
theorem PlacedChild.spread_observed (distinct : (item.compiled.definitionObservers.map Id.index).Nodup) {offset : Nat}
    {inner : Ports F} {o : Nat} (below : o < item.compiled.definitionObservers.length) :
    inner.observed o = (item.compiled.ports (item.spread offset ports voltage inner)).observed o := by
  have inside : o < (item.compiled.definitionObservers.map Id.index).length := by rwa [List.length_map]
  simp only [CompiledPartitionTemplate.ports, Ports.restrict, PlacedChild.spread, List.getElem?_eq_getElem inside,
    Option.getD_some, distinct.idxOf_getElem o inside]

theorem CompiledPartitionTemplate.Compiles.terminals_nodup {definition : DeviceDefinition F} {partition : Nat}
    {compiled : CompiledPartitionTemplate F} (compiles : compiled.Compiles registry latch definition partition) :
    (compiled.definitionTerminals.map Id.index).Nodup := compiles.terminals ▸ places_nodup _ _

theorem CompiledPartitionTemplate.Compiles.observers_nodup {definition : DeviceDefinition F} {partition : Nat}
    {compiled : CompiledPartitionTemplate F} (compiles : compiled.Compiles registry latch definition partition) :
    (compiled.definitionObservers.map Id.index).Nodup := compiles.observers ▸ places_nodup _ _

/-- What a part relates at the ports that it sees is the law of the element's partition. -/
theorem PlacedChild.Fits.law (fits : item.Fits registry circuit children made)
    (compiles : item.compiled.Compiles registry latch item.child item.place.2)
    (parameters : made.ParametersPlaced parameterCount) (states : made.StatesPlaced)
    (nodes : ∀ (n : Nat) u, made.nodeUnknowns[n]? = some (some u) → voltage' u.index = voltage n) {inner : Ports F}
    (sees : item.part.Sees made.builder.stamps.nodes (ports.restrict terminals (made.definitionParameters.map Id.index)
      (made.definitionStates.map Id.index) observers) voltage' inner) (behaves : item.part.stamps.Behaves latch inner) :
    item.child.PartitionLaw registry latch item.place.2 (item.spread
      (registry.stateOffset (circuit.elements.take item.place.1)) ports voltage inner) := by
  obtain ⟨terminalCount, parameterCount, stateCount, outputCount⟩ := compiles.counts
  have sees' := fits.sees compiles parameters states nodes
    (item.spread_sees (registry.stateOffset (circuit.elements.take item.place.1)) ports voltage inner) terminals observers
  refine (compiles.law _).mp (compiles.sound.stamps.behaves_congr ?_ (fits.stamps ▸ behaves))
  have agree := sees.agree sees' item.compiled.template.stamps.outputs.length (fun t below => ?_) fun o below => ?_
  · rwa [parameterCount, stateCount, terminalCount, fits.parameters.length_eq, fits.states.length_eq,
      fits.terminals.length_eq]
  · exact PlacedChild.spread_current compiles.terminals_nodup (fits.terminals.length_eq ▸ below)
  · exact PlacedChild.spread_observed compiles.observers_nodup (outputCount ▸ below)

end Children

/-! ### The composition as a whole -/

/-- An output shows what the observer's source says. -/
def DefinitionObserverSource.ShownBy (made : Composition F) (items : List (PlacedChild F)) :
    DefinitionObserverSource → OutputSource → Prop
  | .voltage positive negative, .difference left right => made.nodeUnknowns[positive.index]? = some (some ⟨left⟩) ∧
      made.nodeUnknowns[negative.index]? = some (some ⟨right⟩)
  | .child element observer, .part k output => ∃ item observed, items[k]? = some item ∧
      item.child.observer observer = some observed ∧ item.place = (element.index, observed.partition.index) ∧
      item.compiled.definitionObservers[output]? = some observer
  | _, _ => False

/-- What a composition has at its end. -/
structure Composed (registry : DefinitionRegistry F) (circuit : Circuit F) (children : List (CompiledDefinition F))
    (definition : DeviceDefinition F) (partition : Nat) (made : Composition F) (items : List (PlacedChild F))
    (nodes : List Nat) (sources : List OutputSource) : Prop where
  paired : definition.terminalPartitions.length = definition.terminals.length
  places : items.map PlacedChild.place = definition.childPlaces registry circuit partition
  fits : ∀ item ∈ items, item.Fits registry circuit children made
  onNodes : made.NodesPlaced ((definition.terminalsOf partition).map definition.nodeAt) circuit.nodeCount nodes
  apart : ∀ (n : Nat) u, made.nodeUnknowns[n]? = some (some u) → ∀ (i : Nat) node part,
    definition.terminals[i]? = some node → node.index = n → definition.terminalPartitions[i]? = some part →
      part.index = partition
  parameters : made.ParametersPlaced definition.parameters.length
  states : made.StatesPlaced
  counted : sources.length = (definition.observersOf partition).length
  shown : ∀ (o j : Nat) observer source, (definition.observersOf partition)[o]? = some j →
    definition.observers[j]? = some observer → sources[o]? = some source → observer.source.ShownBy made items source

/-- The places of the elements' partitions are distinct. -/
theorem Circuit.places_nodup (registry : DefinitionRegistry F) (circuit : Circuit F) :
    ((circuit.places registry).map Prod.fst).Nodup := by
  rw [Circuit.places, List.zipIdx_map_fst, List.nodup_flatMap]
  refine ⟨fun entry _ => ?_, ?_⟩
  · exact List.nodup_range.map fun a b same => (Prod.mk.inj same).2
  · have numbered : (circuit.elements.zipIdx.map Prod.snd).Nodup := by
      rw [List.zipIdx_map_snd]
      exact List.nodup_range'
    refine (List.pairwise_map.mp numbered).imp fun {a b} different => ?_
    intro place inA inB
    obtain ⟨_, -, rfl⟩ := List.mem_map.mp inA
    obtain ⟨_, -, same⟩ := List.mem_map.mp inB
    exact different (Prod.mk.inj same).1.symm

theorem DeviceDefinition.childPlaces_nodup (registry : DefinitionRegistry F) (definition : DeviceDefinition F)
    (circuit : Circuit F) (partition : Nat) : (definition.childPlaces registry circuit partition).Nodup :=
  (circuit.places_nodup registry).sublist ((List.filter_sublist).map _)

namespace Composed

variable [Field F] [F64 F] {registry : DefinitionRegistry F} {latch : F → F → F → Prop} {circuit : Circuit F}
  {children : List (CompiledDefinition F)} {definition : DeviceDefinition F} {partition : Nat} {made : Composition F}
  {items : List (PlacedChild F)} {nodes : List Nat} {sources : List OutputSource} {ports : Ports F}
  {inner : Nat → Ports F} {inner' : Nat → Nat → Ports F}

omit [F64 F] in
theorem inflow_items (composed : Composed registry circuit children definition partition made items nodes sources) (n : Nat) :
    circuit.inflow registry (definition.childPlaces registry circuit partition) inner' n =
      (items.map fun item => item.element.inflow item.child item.place.2 (inner' item.place.1 item.place.2) n).sum := by
  rw [Circuit.inflow, ← composed.places, List.map_map]
  congr 1
  refine List.map_congr_left fun item member => ?_
  have fits := composed.fits item member
  simp [fits.element, fits.child]

/-- The current into the parts at a node's unknown is the current into the elements at the node. -/
theorem inflow_eq (composed : Composed registry circuit children definition partition made items nodes sources)
    (compiles : ∀ item ∈ items, item.compiled.Compiles registry latch item.child item.place.2)
    (same : ∀ (k : Nat) item, items[k]? = some item → ∀ t < item.part.placement.terminals.length,
      (inner k).current t = (item.compiled.ports (inner' item.place.1 item.place.2)).current t)
    {n u : Nat} (here : made.nodeUnknowns[n]? = some (some ⟨u⟩)) :
    inflow (items.map PlacedChild.part) inner u =
      circuit.inflow registry (definition.childPlaces registry circuit partition) inner' n := by
  rw [composed.inflow_items, inflow]
  congr 1
  refine List.ext_getElem (by simp) fun k left right => ?_
  have below : k < items.length := by simpa using left
  have member := List.getElem_mem below
  simp only [List.getElem_map, List.getElem_zipIdx, Nat.zero_add]
  rw [Part.inflow_congr (same k _ (List.getElem?_eq_getElem below))]
  exact (composed.fits _ member).inflow_eq (compiles _ member) composed.onNodes.distinct here

theorem inflow_absent (composed : Composed registry circuit children definition partition made items nodes sources)
    (compiles : ∀ item ∈ items, item.compiled.Compiles registry latch item.child item.place.2) {n : Nat}
    (absent : ∀ u, made.nodeUnknowns[n]? ≠ some (some u)) :
    circuit.inflow registry (definition.childPlaces registry circuit partition) inner' n = 0 := by
  rw [composed.inflow_items]
  apply List.sum_eq_zero
  intro amount member
  obtain ⟨item, listed, rfl⟩ := List.mem_map.mp member
  exact (composed.fits item listed).inflow_unplaced (compiles item listed) absent

omit [Field F] [F64 F] in
/-- A place of the partition has its item. -/
theorem item_at (composed : Composed registry circuit children definition partition made items nodes sources)
    {place : Nat × Nat} (member : place ∈ definition.childPlaces registry circuit partition) :
    ∃ (k : Nat) (item : PlacedChild F), items[k]? = some item ∧ item.place = place := by
  rw [← composed.places] at member
  obtain ⟨item, listed, rfl⟩ := List.mem_map.mp member
  obtain ⟨k, read⟩ := List.mem_iff_getElem?.mp listed
  exact ⟨k, item, read, rfl⟩

omit [Field F] [F64 F] in
/-- A terminal of the partition has the unknown of its number. -/
theorem terminal_node (composed : Composed registry circuit children definition partition made items nodes sources)
    {i : Nat} {node : NodeId} {part : DevicePartitionId} (isNode : definition.terminals[i]? = some node)
    (isPart : definition.terminalPartitions[i]? = some part) (here : part.index = partition) :
    ∃ t : Nat, (definition.terminalsOf partition)[t]? = some i ∧ made.nodeUnknowns[node.index]? = some (some ⟨t⟩) := by
  obtain ⟨t, read⟩ := List.mem_iff_getElem?.mp (DeviceDefinition.mem_terminalsOf.mpr ⟨part, isPart, here⟩)
  refine ⟨t, read, composed.onNodes.exposed t node.index ?_⟩
  rw [List.getElem?_map, read, Option.map_some, DeviceDefinition.nodeAt_eq isNode]

/-- The ports of the partition, as the composition numbers them. -/
abbrev whole (definition : DeviceDefinition F) (partition : Nat) (made : Composition F) (ports : Ports F) : Ports F :=
  ports.restrict (definition.terminalsOf partition) (made.definitionParameters.map Id.index)
    (made.definitionStates.map Id.index) (definition.observersOf partition)

/-- Where the parts are linked, the elements are, by what they see of the nodes. -/
theorem law_of_linked (composed : Composed registry circuit children definition partition made items nodes sources)
    (body : definition.body = .composite circuit)
    (compiles : ∀ item ∈ items, item.compiled.Compiles registry latch item.child item.place.2) {voltage' : Nat → F}
    (linked : made.builder.stamps.Linked (items.map PlacedChild.part) nodes sources (whole definition partition made ports)
      voltage' inner)
    (behaves : ∀ (k : Nat) item, items[k]? = some item → item.part.stamps.Behaves latch (inner k)) :
    definition.PartitionLaw registry latch partition ports := by
  let voltage : Nat → F := fun n => ((made.nodeUnknowns[n]?.join).map fun u => voltage' u.index).getD 0
  have onNodes : ∀ (n : Nat) u, made.nodeUnknowns[n]? = some (some u) → voltage' u.index = voltage n := by
    intro n u read
    simp [voltage, read]
  let inner' : Nat → Nat → Ports F := fun e p =>
    (items[(items.map PlacedChild.place).idxOf (e, p)]?.map fun item =>
      item.spread (registry.stateOffset (circuit.elements.take item.place.1)) ports voltage
        (inner ((items.map PlacedChild.place).idxOf (e, p)))).getD (inner 0)
  have distinct : (items.map PlacedChild.place).Nodup := composed.places ▸ definition.childPlaces_nodup registry circuit partition
  have spread : ∀ (k : Nat) item, items[k]? = some item → inner' item.place.1 item.place.2 =
      item.spread (registry.stateOffset (circuit.elements.take item.place.1)) ports voltage (inner k) := by
    intro k item read
    obtain ⟨below, atK⟩ := List.getElem?_eq_some_iff.mp read
    have inside : k < (items.map PlacedChild.place).length := by rwa [List.length_map]
    have number := distinct.idxOf_getElem k inside
    rw [List.getElem_map, atK] at number
    show ((items[(items.map PlacedChild.place).idxOf item.place]?.map _).getD (inner 0)) = _
    rw [number, read]
    rfl
  have currents : ∀ (k : Nat) item, items[k]? = some item → ∀ t < item.part.placement.terminals.length,
      (inner k).current t = (item.compiled.ports (inner' item.place.1 item.place.2)).current t := by
    intro k item read t below
    have member := List.mem_of_getElem? read
    rw [spread k item read]
    exact PlacedChild.spread_current (compiles item member).terminals_nodup
      ((composed.fits item member).terminals.length_eq ▸ below)
  have balance : ∀ (n : Nat) u, made.nodeUnknowns[n]? = some (some u) → ∃ info, made.builder.unknowns[u.index]? = some info ∧
      (∀ t, info.terminal? = some t ↔ ((definition.terminalsOf partition).map definition.nodeAt)[t]? = some n) ∧
      (∀ t, info.terminal? = some t → voltage n = (whole definition partition made ports).voltage t ∧
        circuit.inflow registry (definition.childPlaces registry circuit partition) inner' n =
          (whole definition partition made ports).current t) ∧
      (info.terminal? = none →
        circuit.inflow registry (definition.childPlaces registry circuit partition) inner' n = 0) := by
    intro n u read
    obtain ⟨info, there, bound⟩ := composed.onNodes.bound n u read
    have held := linked.balance u.index ((composed.onNodes.mem _).mpr ⟨n, read⟩) info there
    rw [composed.inflow_eq compiles currents read, onNodes n u read] at held
    refine ⟨info, there, bound, fun t isBound => ?_, fun isFree => ?_⟩
    · rw [isBound] at held
      exact held
    · rw [isFree] at held
      exact held
  refine @DeviceDefinition.PartitionLaw.composite F _ _ registry latch definition circuit partition ports voltage inner' body
    ⟨?_, ?_, ?_, ?_⟩ ?_
  · intro place member element child isElement isChild
    obtain ⟨k, item, read, rfl⟩ := composed.item_at member
    have fits := composed.fits item (List.mem_of_getElem? read)
    obtain rfl := Option.some.inj (fits.element.symm.trans isElement)
    obtain rfl := Option.some.inj (fits.child.symm.trans isChild)
    rw [spread k item read]
    exact item.spread_sees _ ports voltage (inner k)
  · intro i node part isNode isPart here
    obtain ⟨t, isTerminal, read⟩ := composed.terminal_node isNode isPart here
    obtain ⟨info, there, bound, held, -⟩ := balance node.index ⟨t⟩ read
    have isBound : info.terminal? = some t := by
      rw [bound, List.getElem?_map, isTerminal, Option.map_some, DeviceDefinition.nodeAt_eq isNode]
    simpa [Ports.restrict, isTerminal] using held t isBound
  · intro n apart
    by_cases placed : ∃ u, made.nodeUnknowns[n]? = some (some u)
    · obtain ⟨u, read⟩ := placed
      obtain ⟨info, there, bound, -, held⟩ := balance n u read
      cases isBound : info.terminal? with
      | none => exact held isBound
      | some t =>
        have isTerminal := (bound t).mp isBound
        rw [List.getElem?_map] at isTerminal
        obtain ⟨i, isI, rfl⟩ := Option.map_eq_some_iff.mp isTerminal
        obtain ⟨part, isPart, -⟩ := DeviceDefinition.mem_terminalsOf.mp (List.mem_of_getElem? isI)
        have inside : i < definition.terminals.length := composed.paired ▸ (List.getElem?_eq_some_iff.mp isPart).1
        have isNode := List.getElem?_eq_getElem inside
        exact absurd (DeviceDefinition.nodeAt_eq isNode).symm (apart _ (List.getElem_mem inside))
    · exact composed.inflow_absent compiles fun u read => placed ⟨u, read⟩
  · intro j observer isObserver here
    obtain ⟨o, isO⟩ := List.mem_iff_getElem?.mp (DeviceDefinition.mem_observersOf.mpr ⟨observer, isObserver, here⟩)
    have inside : o < sources.length := composed.counted ▸ (List.getElem?_eq_some_iff.mp isO).1
    have isSource := List.getElem?_eq_getElem inside
    have shown := composed.shown o j observer _ isO isObserver isSource
    have shows := linked.shows o _ isSource
    have global : (whole definition partition made ports).observed o = ports.observed j := by simp [Ports.restrict, isO]
    rw [global] at shows
    generalize sources[o] = source at shown shows
    cases isKind : observer.source with
    | voltage positive negative =>
      rw [isKind] at shown
      cases source with
      | part k output => exact shown.elim
      | difference left right =>
        exact shows.trans (congrArg₂ F64.sub (onNodes _ _ shown.1) (onNodes _ _ shown.2))
    | current positive negative =>
      rw [isKind] at shown
      cases source <;> exact shown.elim
    | child element inside =>
      rw [isKind] at shown
      cases source with
      | difference left right => exact shown.elim
      | part k output =>
        obtain ⟨item, observed, read, isObserved, isPlace, isOutput⟩ := shown
        have member := List.mem_of_getElem? read
        have fits := composed.fits item member
        have isElement : circuit.elements[element.index]? = some item.element := by rw [← fits.element, isPlace]
        refine ⟨item.element, item.child, observed, isElement, fits.child, isObserved, shows.trans ?_⟩
        have below := (List.getElem?_eq_some_iff.mp isOutput).1
        have placed := spread k item read
        rw [isPlace] at placed
        show (inner k).observed output = (inner' element.index observed.partition.index).observed inside.index
        have moved : (inner k).observed output = (item.compiled.ports (item.spread
            (registry.stateOffset (circuit.elements.take element.index)) ports voltage (inner k))).observed output :=
          PlacedChild.spread_observed (compiles item member).observers_nodup below
        rw [moved, placed]
        simp [CompiledPartitionTemplate.ports, Ports.restrict, isOutput]
  · intro place member element child isElement isChild
    obtain ⟨k, item, read, rfl⟩ := composed.item_at member
    have fits := composed.fits item (List.mem_of_getElem? read)
    obtain rfl := Option.some.inj (fits.element.symm.trans isElement)
    obtain rfl := Option.some.inj (fits.child.symm.trans isChild)
    rw [spread k item read]
    have sees := linked.sees k item.part (by rw [List.getElem?_map, read, Option.map_some])
    exact fits.law (compiles item (List.mem_of_getElem? read)) composed.parameters composed.states onNodes sees
      (behaves k item read)

/-- Where the elements are linked, the parts are, by what they see of the unknowns. -/
theorem linked_of_law (composed : Composed registry circuit children definition partition made items nodes sources)
    (body : definition.body = .composite circuit)
    (compiles : ∀ item ∈ items, item.compiled.Compiles registry latch item.child item.place.2)
    (law : definition.PartitionLaw registry latch partition ports) :
    ∃ voltage' inner, made.builder.stamps.Linked (items.map PlacedChild.part) nodes sources
        (whole definition partition made ports) voltage' inner ∧
      ∀ (k : Nat) item, items[k]? = some item → item.part.stamps.Behaves latch (inner k) := by
  cases law with
  | primitive isPrimitive => cases body.symm.trans isPrimitive
  | delayed isPrimitive => cases body.symm.trans isPrimitive
  | @composite _ circuit' _ _ voltage inner' isComposite linked laws =>
    obtain rfl := DeviceBody.composite.inj (body.symm.trans isComposite)
    obtain ⟨voltage', onNodes⟩ : ∃ voltage' : Nat → F, ∀ (n : Nat) u, made.nodeUnknowns[n]? = some (some u) →
        voltage' u.index = voltage n := by
      classical
      refine ⟨fun u => if h : ∃ n : Nat, made.nodeUnknowns[n]? = some (some ⟨u⟩) then voltage h.choose else 0, fun n u read => ?_⟩
      have known : ∃ n : Nat, made.nodeUnknowns[n]? = some (some ⟨u.index⟩) := ⟨n, read⟩
      dsimp only
      rw [dif_pos known, composed.onNodes.distinct _ _ _ known.choose_spec read]
    let inner : Nat → Ports F := fun k =>
      (items[k]?.map fun item => item.compiled.ports (inner' item.place.1 item.place.2)).getD (inner' 0 0)
    have innerAt : ∀ (k : Nat) item, items[k]? = some item → inner k = item.compiled.ports (inner' item.place.1 item.place.2) := by
      intro k item read
      simp [inner, read]
    have member : ∀ {item : PlacedChild F}, item ∈ items →
        item.place ∈ definition.childPlaces registry circuit partition := by
      intro item listed
      rw [← composed.places]
      exact List.mem_map_of_mem listed
    have onNode : ∀ {n : Nat} {u : LocalUnknownId}, made.nodeUnknowns[n]? = some (some u) →
        inflow (items.map PlacedChild.part) inner u.index =
          circuit.inflow registry (definition.childPlaces registry circuit partition) inner' n := fun read =>
      composed.inflow_eq compiles (fun k item atK t _ => by rw [innerAt k item atK]) read
    refine ⟨voltage', inner, ⟨fun k part read => ?_, fun u isNode info read => ?_, fun o source isSource => ?_⟩,
      fun k item read => ?_⟩
    · rw [List.getElem?_map] at read
      obtain ⟨item, atK, rfl⟩ := Option.map_eq_some_iff.mp read
      have listed := List.mem_of_getElem? atK
      have fits := composed.fits item listed
      rw [innerAt k item atK]
      exact fits.sees (compiles item listed) composed.parameters composed.states onNodes
        (linked.sees item.place (member listed) _ _ fits.element fits.child) _ _
    · obtain ⟨n, atN⟩ := (composed.onNodes.mem u).mp isNode
      obtain ⟨info', there, bound⟩ := composed.onNodes.bound n ⟨u⟩ atN
      obtain rfl := Option.some.inj (read.symm.trans there)
      rw [onNode atN, onNodes n ⟨u⟩ atN]
      cases isBound : info.terminal? with
      | some t =>
        have isTerminal := (bound t).mp isBound
        rw [List.getElem?_map] at isTerminal
        obtain ⟨i, isI, rfl⟩ := Option.map_eq_some_iff.mp isTerminal
        obtain ⟨part, isPart, here⟩ := DeviceDefinition.mem_terminalsOf.mp (List.mem_of_getElem? isI)
        have inside : i < definition.terminals.length := composed.paired ▸ (List.getElem?_eq_some_iff.mp isPart).1
        have exposed := linked.exposed i _ part (List.getElem?_eq_getElem inside) isPart here
        rw [← DeviceDefinition.nodeAt_eq (List.getElem?_eq_getElem inside)] at exposed
        simpa [Ports.restrict, isI] using exposed
      | none =>
        refine linked.balance n fun node listed same => ?_
        obtain ⟨i, isNode'⟩ := List.mem_iff_getElem?.mp listed
        have inside : i < definition.terminalPartitions.length := composed.paired ▸ (List.getElem?_eq_some_iff.mp isNode').1
        have isPart := List.getElem?_eq_getElem inside
        have here := composed.apart n ⟨u⟩ atN i node _ isNode' same isPart
        obtain ⟨t, isTerminal, atNode⟩ := composed.terminal_node isNode' isPart here
        rw [same, atN] at atNode
        have isBound' := (bound t).mpr (by rw [List.getElem?_map, isTerminal, Option.map_some, DeviceDefinition.nodeAt_eq isNode',
          same])
        cases isBound.symm.trans isBound'
    · have inside : o < (definition.observersOf partition).length := composed.counted ▸ (List.getElem?_eq_some_iff.mp isSource).1
      have isO := List.getElem?_eq_getElem inside
      obtain ⟨observer, isObserver, here⟩ := DeviceDefinition.mem_observersOf.mp (List.getElem_mem inside)
      have shown := composed.shown o _ observer source isO isObserver isSource
      have shows := linked.observed _ observer isObserver here
      have global : (whole definition partition made ports).observed o =
          ports.observed (definition.observersOf partition)[o] := by simp [Ports.restrict, inside]
      rw [global]
      generalize ports.observed (definition.observersOf partition)[o] = amount at shows
      cases isKind : observer.source with
      | voltage positive negative =>
        rw [isKind] at shown shows
        cases source with
        | part k output => exact shown.elim
        | difference left right =>
          exact shows.trans (congrArg₂ F64.sub (onNodes _ _ shown.1).symm (onNodes _ _ shown.2).symm)
      | current positive negative =>
        rw [isKind] at shows
        exact shows.elim
      | child element observer' =>
        rw [isKind] at shown shows
        cases source with
        | difference left right => exact shown.elim
        | part k output =>
          obtain ⟨item, observed, read, isObserved, isPlace, isOutput⟩ := shown
          obtain ⟨element', child, observed', isElement, isChild, isObserved', shows⟩ := shows
          have fits := composed.fits item (List.mem_of_getElem? read)
          have atElement := fits.element
          rw [isPlace] at atElement
          obtain rfl := Option.some.inj (atElement.symm.trans isElement)
          obtain rfl := Option.some.inj (fits.child.symm.trans isChild)
          obtain rfl := Option.some.inj (isObserved.symm.trans isObserved')
          have numbered := innerAt k item read
          rw [isPlace] at numbered
          show amount = (inner k).observed output
          rw [shows, numbered]
          simp [CompiledPartitionTemplate.ports, Ports.restrict, isOutput]
    · have listed := List.mem_of_getElem? read
      have fits := composed.fits item listed
      rw [fits.stamps, innerAt k item read]
      exact ((compiles item listed).law _).mpr (laws item.place (member listed) _ _ fits.element fits.child)

/-- A composition behaves as the law of its partition says. -/
theorem behaves_iff (exact : F64.ExactField F)
    (composed : Composed registry circuit children definition partition made items nodes sources)
    (body : definition.body = .composite circuit)
    (compiles : ∀ item ∈ items, item.compiled.Compiles registry latch item.child item.place.2)
    (madeOf : made.builder.stamps.MadeOf (items.map PlacedChild.part) nodes sources)
    (earlier : Earlier made.builder.stamps.nodes) :
    made.builder.stamps.Behaves latch (whole definition partition made ports) ↔
      definition.PartitionLaw registry latch partition ports := by
  rw [madeOf.behaves_iff exact earlier]
  constructor
  · rintro ⟨voltage', inner, linked, behaves⟩
    refine composed.law_of_linked body compiles linked fun k item read => behaves k _ ?_
    rw [List.getElem?_map, read, Option.map_some]
  · intro law
    obtain ⟨voltage', inner, linked, behaves⟩ := composed.linked_of_law body compiles law
    refine ⟨voltage', inner, linked, fun k part read => ?_⟩
    rw [List.getElem?_map] at read
    obtain ⟨item, atK, rfl⟩ := Option.map_eq_some_iff.mp read
    exact behaves k item atK

end Composed

end Hynergy
