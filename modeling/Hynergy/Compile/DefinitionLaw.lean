import Hynergy.Compile.Composition
import Hynergy.Compile.PrimitiveLaws
import Hynergy.Model.Flattening

/-!
# Laws of definitions

What a definition relates at its ports, partition by partition: a primitive by its law, a composite by what its elements
relate on nodes where the currents are in balance.
-/

namespace Hynergy

open Lib

variable {F : Type}

/-! ### Ports in range -/

/-- Ports that are the same as far as they are counted. -/
structure Ports.Agree (ports ports' : Ports F) (parameters states terminals outputs : Nat) : Prop where
  timestep : ports.timestep = ports'.timestep
  parameter : ∀ p < parameters, ports.parameter p = ports'.parameter p
  state : ∀ s < states, ports.state s = ports'.state s ∧ ports.next s = ports'.next s
  terminal : ∀ t < terminals, ports.voltage t = ports'.voltage t ∧ ports.current t = ports'.current t
  observed : ∀ o < outputs, ports.observed o = ports'.observed o

theorem Ports.Agree.symm {ports ports' : Ports F} {parameters states terminals outputs : Nat}
    (h : ports.Agree ports' parameters states terminals outputs) : ports'.Agree ports parameters states terminals outputs :=
  ⟨h.timestep.symm, fun p inside => (h.parameter p inside).symm,
    fun s inside => ⟨(h.state s inside).1.symm, (h.state s inside).2.symm⟩,
    fun t inside => ⟨(h.terminal t inside).1.symm, (h.terminal t inside).2.symm⟩,
    fun o inside => (h.observed o inside).symm⟩

/-- Sound stamps do not look further than their counts. -/
theorem Stamps.Sound.behaves_congr [Field F] [F64 F] {stamps : Stamps F} {parameters states terminals : Nat}
    (sound : stamps.Sound parameters states terminals) {latch : F → F → F → Prop} {ports ports' : Ports F}
    (agree : ports.Agree ports' parameters states terminals stamps.outputs.length) (behaves : stamps.Behaves latch ports) :
    stamps.Behaves latch ports' := by
  obtain ⟨unknown, values, solved⟩ := behaves
  refine ⟨unknown, values, ?_, ?_, solved.latches, ?_, ?_⟩
  · exact sound.evaluates_congr solved.evaluates agree.parameter agree.timestep
      (fun s inside => (agree.state s inside).1) fun _ _ => rfl
  · rintro ⟨info, u⟩ listed
    have row := solved.rows (info, u) listed
    rw [Stamps.rowHolds_iff] at row ⊢
    split
    · rename_i t bound
      rw [bound] at row
      have listed' : t ∈ List.range terminals := by
        rw [← sound.terminals]
        exact List.mem_filterMap.mpr ⟨info, List.mem_of_getElem? (List.mem_zipIdx_iff_getElem?.mp listed), bound⟩
      obtain ⟨voltage, current⟩ := agree.terminal t (List.mem_range.mp listed')
      exact ⟨row.1.trans voltage, row.2.trans current⟩
    · rename_i free
      rw [free] at row
      exact row
  · intro entry member
    rw [← (agree.state _ (sound.writes entry member).1).2]
    exact solved.writes entry member
  · intro entry member
    have inside := (List.getElem?_eq_some_iff.mp (List.mem_zipIdx_iff_getElem?.mp member)).1
    rw [← agree.observed _ inside]
    exact solved.outputs entry member

/-- Some of the ports, renumbered. -/
def Ports.restrict (ports : Ports F) (terminals parameters states observers : List Nat) : Ports F where
  parameter p := ports.parameter (parameters[p]?.getD 0)
  timestep := ports.timestep
  state s := ports.state (states[s]?.getD 0)
  next s := ports.next (states[s]?.getD 0)
  voltage t := ports.voltage (terminals[t]?.getD 0)
  current t := ports.current (terminals[t]?.getD 0)
  observed o := ports.observed (observers[o]?.getD 0)

/-! ### Composites -/

/-- The value of a parameter of an element. -/
def ValueRef.valueIn (parameters : Nat → F) : ValueRef F → F
  | .literal value => value
  | .parameter id => parameters id.index

/-- Where the states of the child after some elements start. -/
def DefinitionRegistry.stateOffset (registry : DefinitionRegistry F) (elements : List (Element F)) : Nat :=
  (elements.map fun element => ((registry.get element.definition).map DeviceDefinition.stateCount).getD 0).sum

/-- The partitions of the elements, in order, with their places in the layout. -/
def Circuit.places (registry : DefinitionRegistry F) (circuit : Circuit F) : List ((Nat × Nat) × Nat) :=
  (circuit.elements.zipIdx.flatMap fun entry =>
    (List.range (((registry.get entry.1.definition).map DeviceDefinition.partitionCount).getD 0)).map fun partition =>
      (entry.2, partition)).zipIdx

namespace DeviceDefinition

/-- The partitions of elements that make up a partition of a composite. -/
def childPlaces (registry : DefinitionRegistry F) (definition : DeviceDefinition F) (circuit : Circuit F)
    (partition : Nat) : List (Nat × Nat) :=
  ((circuit.places registry).filter fun entry =>
    decide (definition.elementPartitions[entry.2]?.map Id.index = some partition)).map Prod.fst

end DeviceDefinition

variable [Field F]

/-- The current into one partition of an element at a node. -/
def Element.inflow (element : Element F) (child : DeviceDefinition F) (partition : Nat) (ports : Ports F) (node : Nat) : F :=
  (child.terminalPartitions.zipIdx.map fun entry =>
    if entry.1.index = partition ∧ element.terminals[entry.2]?.map Id.index = some node then ports.current entry.2
    else 0).sum

/-- The current into the elements at a node, of the partitions at the places. -/
def Circuit.inflow (registry : DefinitionRegistry F) (circuit : Circuit F) (places : List (Nat × Nat))
    (inner : Nat → Nat → Ports F) (node : Nat) : F :=
  (places.map fun place => ((circuit.elements[place.1]?.bind fun element =>
    (registry.get element.definition).map fun child => element.inflow child place.2 (inner place.1 place.2) node).getD 0)).sum

/-- What an element's partition sees of the definition it is in. -/
structure Element.Sees (element : Element F) (child : DeviceDefinition F) (stateOffset : Nat) (ports : Ports F)
    (voltage : Nat → F) (inner : Ports F) : Prop where
  timestep : inner.timestep = ports.timestep
  parameters : ∀ (i : Nat) value, element.parameters[i]? = some value → inner.parameter i = value.valueIn ports.parameter
  states : ∀ s < child.stateCount, inner.state s = ports.state (stateOffset + s) ∧ inner.next s = ports.next (stateOffset + s)
  terminals : ∀ (i : Nat) node, element.terminals[i]? = some node → inner.voltage i = voltage node.index

/-- What an observer of a composite shows. -/
def DefinitionObserverSource.Shows [F64 F] (registry : DefinitionRegistry F) (circuit : Circuit F) (voltage : Nat → F)
    (inner : Nat → Nat → Ports F) (shown : F) : DefinitionObserverSource → Prop
  | .voltage positive negative => shown = F64.sub (voltage positive.index) (voltage negative.index)
  | .current _ _ => False
  | .child element observer => ∃ there child observed, circuit.elements[element.index]? = some there ∧
      registry.get there.definition = some child ∧ child.observer observer = some observed ∧
      shown = (inner element.index observed.partition.index).observed observer.index

/-- The elements of a composite share the nodes of one of its partitions. -/
structure DeviceDefinition.Linked [F64 F] (registry : DefinitionRegistry F) (definition : DeviceDefinition F)
    (circuit : Circuit F) (partition : Nat) (ports : Ports F) (voltage : Nat → F) (inner : Nat → Nat → Ports F) : Prop where
  sees : ∀ place ∈ definition.childPlaces registry circuit partition, ∀ element child,
    circuit.elements[place.1]? = some element → registry.get element.definition = some child →
      element.Sees child (registry.stateOffset (circuit.elements.take place.1)) ports voltage (inner place.1 place.2)
  exposed : ∀ (i : Nat) node part, definition.terminals[i]? = some node → definition.terminalPartitions[i]? = some part →
    part.index = partition → voltage node.index = ports.voltage i ∧
      circuit.inflow registry (definition.childPlaces registry circuit partition) inner node.index = ports.current i
  balance : ∀ n : Nat, (∀ node ∈ definition.terminals, Id.index node ≠ n) →
    circuit.inflow registry (definition.childPlaces registry circuit partition) inner n = 0
  observed : ∀ (j : Nat) observer, definition.observers[j]? = some observer → observer.partition.index = partition →
    observer.source.Shows registry circuit voltage inner (ports.observed j)

/-- The law of a partition of a definition. -/
inductive DeviceDefinition.PartitionLaw [F64 F] (registry : DefinitionRegistry F) (latch : F → F → F → Prop) :
    DeviceDefinition F → Nat → Ports F → Prop
  | primitive {definition : DeviceDefinition F} {kind : PrimitiveElementKind} {ports : Ports F}
      (body : definition.body = .primitive kind) (law : kind.Law latch ports) : PartitionLaw registry latch definition 0 ports
  | delayed {definition : DeviceDefinition F} {ports : Ports F} (body : definition.body = .primitive .tickDelay)
      (law : PrimitiveElementKind.TickDelayOutputLaw (ports.restrict [2, 3] [] [0] [1, 2])) :
      PartitionLaw registry latch definition 1 ports
  | composite {definition : DeviceDefinition F} {circuit : Circuit F} {partition : Nat} {ports : Ports F}
      {voltage : Nat → F} {inner : Nat → Nat → Ports F} (body : definition.body = .composite circuit)
      (linked : definition.Linked registry circuit partition ports voltage inner)
      (children : ∀ place ∈ definition.childPlaces registry circuit partition, ∀ element child,
        circuit.elements[place.1]? = some element → registry.get element.definition = some child →
          PartitionLaw registry latch child place.2 (inner place.1 place.2)) :
      PartitionLaw registry latch definition partition ports

end Hynergy
