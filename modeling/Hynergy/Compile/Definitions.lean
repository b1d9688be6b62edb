import Hynergy.Compile.Primitives
import Hynergy.Model.CallLoops
import Hynergy.Model.Registry
import Hynergy.State.PhysicalState

/-!
# Compiling definitions

A definition is compiled to a template for each of its partitions. A composite compiles its children and instantiates
their partitions in the partitions they are mapped to, on the nodes of the circuit.
-/

namespace Hynergy

open Lib DefinitionTemplateBuilder

variable {F : Type}

inductive FailedTickStateTransition (F : Type) where
  | preserve
  | literal (value : F)

structure CompiledPartitionTemplate (F : Type) where
  definitionTerminals : List TerminalId
  definitionParameters : List ParameterId
  definitionStates : List DefinitionStateId
  definitionStateReads : List DefinitionStateId
  definitionStateWrites : List DefinitionStateId
  definitionObservers : List DefinitionObserverId
  template : CompiledDefinitionTemplate F

structure CompiledDefinition (F : Type) where
  partitions : List (CompiledPartitionTemplate F)
  stateInitializers : List (DefinitionStateInitializer F)
  failedTickTransitions : List (FailedTickStateTransition F)

namespace CompiledDefinition

def partitionCount (self : CompiledDefinition F) : Nat := self.partitions.length

def partition (self : CompiledDefinition F) (partition : DevicePartitionId) : Option (CompiledPartitionTemplate F) :=
  self.partitions[partition.index]?

def stateCount (self : CompiledDefinition F) : Nat := self.stateInitializers.length

/-- A partition is the writer of a state. -/
def recordWriter (partition : DevicePartitionId) (stateWriters : List (Option DevicePartitionId))
    (state : DefinitionStateId) : Compile (List (Option DevicePartitionId)) := do
  let owner ← Call.expect stateWriters[state.index]?
  match owner with
  | none => pure (stateWriters.set state.index (some partition))
  | some first =>
    if first = partition then pure stateWriters
    else Call.throw (.multipleStateWriterPartitions state first partition)

def recordWriters (stateWriters : List (Option DevicePartitionId)) (entry : CompiledPartitionTemplate F × Nat) :
    Compile (List (Option DevicePartitionId)) := do
  let partition ← Call.expect (Id.ofIndex? entry.2)
  entry.1.definitionStateWrites.foldlM (recordWriter partition) stateWriters

/-- Every state must have one partition that writes it. -/
def new (partitions : List (CompiledPartitionTemplate F)) (stateInitializers : List (DefinitionStateInitializer F))
    (failedTickTransitions : List (FailedTickStateTransition F)) : Compile (CompiledDefinition F) := do
  let stateWriters ← partitions.zipIdx.foldlM recordWriters (List.replicate stateInitializers.length none)
  match stateWriters.findIdx? Option.isNone with
  | some index => do
    let state ← Call.expect (Id.ofIndex? index)
    Call.throw (.missingStateWriter state)
  | none => pure { partitions, stateInitializers, failedTickTransitions }

end CompiledDefinition

/-! ### Parts of a definition -/

def definitionParameters (definition : DeviceDefinition F) : Option (List ParameterId) :=
  (List.range definition.parameters.length).mapM fun index => Id.ofIndex? index

def definitionStates (definition : DeviceDefinition F) : Option (List DefinitionStateId) :=
  (List.range definition.stateCount).mapM fun index => Id.ofIndex? index

def definitionObserversForPartition (definition : DeviceDefinition F) (partition : DevicePartitionId) :
    Option (List DefinitionObserverId) :=
  (definition.observers.zipIdx.filter fun entry => decide (entry.1.partition = partition)).mapM fun entry =>
    Id.ofIndex? entry.2

def definitionTerminalsForPartition (definition : DeviceDefinition F) (partition : DevicePartitionId) :
    Option (List TerminalId) :=
  (definition.terminalPartitions.zipIdx.filter fun entry => decide (entry.1 = partition)).mapM fun entry =>
    Id.ofIndex? entry.2

/-! ### Primitives -/

section Primitives

variable [F64 F]

def primitiveStateInitializers : PrimitiveElementKind → List (DefinitionStateInitializer F)
  | .capacitor | .inductor | .tickDelay | .schmittBuffer => [.literal F64.zero]
  | _ => []

def primitiveFailedTickTransitions : PrimitiveElementKind → List (FailedTickStateTransition F)
  | .capacitor | .inductor | .schmittBuffer => [.preserve]
  | .tickDelay => [.literal F64.zero]
  | _ => []

/-- The stamps of a partition of a tick delay, with the states that it reads and writes; there are two. -/
def tickDelayStamps (state : DefinitionStateId) :
    Nat → Option (Build F Unit × List DefinitionStateId × List DefinitionStateId)
  | 0 => some (compileTickDelayInput, [], [state])
  | 1 => some (compileTickDelayOutput, [state], [])
  | _ => none

def compileTickDelayPartition (definition : DeviceDefinition F) (partitionIndex : Nat) :
    Compile (CompiledPartitionTemplate F) := do
  let state ← Call.expect (Id.ofIndex? 0)
  let partition ← Call.expect (Id.ofIndex? partitionIndex)
  let definitionTerminals ← Call.expect (definitionTerminalsForPartition definition partition)
  let definitionObservers ← Call.expect (definitionObserversForPartition definition partition)
  let (stamps, definitionStateReads, definitionStateWrites) ← Call.expect (tickDelayStamps state partitionIndex)
  let template ← withBuilder (do
    stamps
    finish)
  pure
    { definitionTerminals
      definitionParameters := []
      definitionStates := [state]
      definitionStateReads
      definitionStateWrites
      definitionObservers
      template }

def compileTickDelayPartitions (definition : DeviceDefinition F) : Compile (List (CompiledPartitionTemplate F)) :=
  Call.pushEach (fun _ partitionIndex => compileTickDelayPartition definition partitionIndex) []
    (List.range definition.partitionCount)

/-- The only partition of a primitive that is no tick delay. -/
def compilePrimitivePartition (definition : DeviceDefinition F) (kind : PrimitiveElementKind) :
    Compile (CompiledPartitionTemplate F) := do
  let template ← compilePrimitive kind
  let partition ← Call.expect (Id.ofIndex? 0)
  let definitionParameters ← Call.expect (Hynergy.definitionParameters definition)
  let definitionStates ← Call.expect (Hynergy.definitionStates definition)
  let definitionObservers ← Call.expect (definitionObserversForPartition definition partition)
  let definitionTerminals ← Call.expect (definitionTerminalsForPartition definition partition)
  pure
    { definitionTerminals
      definitionParameters
      definitionStates
      definitionStateReads := definitionStates
      definitionStateWrites := definitionStates
      definitionObservers
      template }

end Primitives

/-! ### Composites -/

/-- The locals of `compile_composite_partition`. -/
structure Composition (F : Type) where
  builder : DefinitionTemplateBuilder F := {}
  nodeUnknowns : List (Option LocalUnknownId)
  parameterValues : List (Option LocalValueId)
  definitionParameters : List ParameterId := []
  localStates : List (Option LocalStateId)
  definitionStates : List DefinitionStateId := []
  definitionStateReads : List DefinitionStateId := []
  definitionStateWrites : List DefinitionStateId := []
  forwardedObserverValues : List (Option LocalValueId)

namespace Composition

abbrev Compose (F α : Type) := Call (Composition F) DefinitionTemplateBuildError α

def onBuilder {α : Type} (call : Build F α) : Compose F α :=
  Call.zoom Composition.builder (fun self builder => { self with builder }) id call

def terminal (definition : DeviceDefinition F) (terminal : TerminalId) : Compose F Unit := do
  let node ← Call.expect definition.terminals[terminal.index]?
  let unknown ← onBuilder terminalVoltage
  let self ← Call.get
  let _ ← Call.expect self.nodeUnknowns[node.index]?
  Call.set { self with nodeUnknowns := self.nodeUnknowns.set node.index (some unknown) }

/-- `composite_node_unknown`. -/
def nodeUnknown (node : NodeId) : Compose F LocalUnknownId := do
  let self ← Call.get
  let known ← Call.expect self.nodeUnknowns[node.index]?
  match known with
  | some unknown => pure unknown
  | none => do
    let unknown ← onBuilder allocatedVoltageUnknown
    Call.modify fun self => { self with nodeUnknowns := self.nodeUnknowns.set node.index (some unknown) }
    pure unknown

/-- `composite_parameter_value`. -/
def parameterValue : ValueRef F → Compose F LocalValueId
  | .literal value => onBuilder (constant value)
  | .parameter parameter => do
    let self ← Call.get
    let known ← Call.expect self.parameterValues[parameter.index]?
    match known with
    | some value => pure value
    | none => do
      let value ← onBuilder DefinitionTemplateBuilder.parameter
      Call.modify fun self => { self with
        parameterValues := self.parameterValues.set parameter.index (some value)
        definitionParameters := self.definitionParameters ++ [parameter] }
      pure value

end Composition

/-- `state_used`, `state_reads` and `state_writes`. -/
structure StateUses where
  used : List Bool
  reads : List Bool
  writes : List Bool

def markStates (offset : Nat) (states : List DefinitionStateId) (marks : List Bool) : Option (List Bool) :=
  states.foldlM (fun marks state => assign marks (offset + state.index) true) marks

/-- The partitions of the children in the order of the nested loops, and their places in the layout. -/
def childPartitions (children : List (CompiledDefinition F)) : List ((Nat × Nat) × Nat) :=
  (children.zipIdx.flatMap fun entry => (List.range entry.1.partitionCount).map fun partition => (entry.2, partition)).zipIdx

/-- A partition of a child, with the offset of the child's states. -/
def childPartition (children : List (CompiledDefinition F)) (elementStateOffsets : List Nat) (place : Nat × Nat) :
    Option (CompiledPartitionTemplate F × Nat) := do
  let child ← children[place.1]?
  let offset ← elementStateOffsets[place.1]?
  let partition ← (Id.ofIndex? place.2 : Option DevicePartitionId)
  let template ← child.partition partition
  some (template, offset)

def useStates (elementPartitions : List DevicePartitionId) (parentPartition : DevicePartitionId)
    (children : List (CompiledDefinition F)) (elementStateOffsets : List Nat) (uses : StateUses)
    (entry : (Nat × Nat) × Nat) : Option StateUses := do
  let mappedParent ← elementPartitions[entry.2]?
  if mappedParent ≠ parentPartition then some uses
  else do
    let (child, offset) ← childPartition children elementStateOffsets entry.1
    let used ← markStates offset child.definitionStates uses.used
    let reads ← markStates offset child.definitionStateReads uses.reads
    let writes ← markStates offset child.definitionStateWrites uses.writes
    some ⟨used, reads, writes⟩

/-- `next_state` before each child, and after all. -/
def elementStateOffsets (children : List (CompiledDefinition F)) : Option (List Nat × Nat) :=
  children.foldlM (fun (offsets, nextState) child =>
    if nextState + child.stateCount < 2 ^ 64 then some (offsets ++ [nextState], nextState + child.stateCount) else none)
    ([], 0)

namespace Composition

def stateSlot (uses : StateUses) (index : Nat) : Compose F Unit := do
  let used ← Call.expect uses.used[index]?
  if used = true then do
    let state ← Call.expect (Id.ofIndex? index)
    let writes ← Call.expect uses.writes[index]?
    let slot ← onBuilder (allocateStateSlot writes)
    let reads ← Call.expect uses.reads[index]?
    Call.modify fun self => { self with
      localStates := self.localStates.set index (some slot)
      definitionStates := self.definitionStates ++ [state]
      definitionStateReads := if reads = true then self.definitionStateReads ++ [state] else self.definitionStateReads
      definitionStateWrites :=
        if writes = true then self.definitionStateWrites ++ [state] else self.definitionStateWrites }
  else pure ()

/-- An output of a child at an observer of the definition that forwards it. -/
def forward (parentPartition : DevicePartitionId) (elementIndex : Nat) (output : DefinitionObserverId × LocalValueId)
    (parent : DefinitionObserver × Nat) : Compose F Unit :=
  if parent.1.partition ≠ parentPartition then pure ()
  else
    match parent.1.source with
    | .child element observer =>
      if element.index ≠ elementIndex ∨ observer ≠ output.1 then pure ()
      else Call.modify fun self => { self with
        forwardedObserverValues := self.forwardedObserverValues.set parent.2 (some output.2) }
    | _ => pure ()

variable [F64 F]

def child (definition : DeviceDefinition F) (circuit : Circuit F) (parentPartition : DevicePartitionId)
    (children : List (CompiledDefinition F)) (elementStateOffsets : List Nat) (entry : (Nat × Nat) × Nat) :
    Compose F Unit := do
  let mappedParent ← Call.expect definition.elementPartitions[entry.2]?
  if mappedParent ≠ parentPartition then pure ()
  else do
    let element ← Call.expect circuit.elements[entry.1.1]?
    let (child, stateOffset) ← Call.expect (childPartition children elementStateOffsets entry.1)
    let terminals ← Call.pushEach (fun _ terminal => do
      let node ← Call.expect element.terminals[Id.index terminal]?
      nodeUnknown node) [] child.definitionTerminals
    let parameters ← Call.pushEach (fun _ parameter => do
      let value ← Call.expect element.parameters[Id.index parameter]?
      parameterValue value) [] child.definitionParameters
    let self ← Call.get
    let states ← Call.expect (child.definitionStates.mapM fun state => self.localStates[stateOffset + state.index]?.join)
    let outputs ← onBuilder (child.template.instantiateInto terminals parameters states)
    (child.definitionObservers.zip outputs).forM fun output =>
      definition.observers.zipIdx.forM (forward parentPartition entry.1.1 output)

/-- A round of `compile_partition_observers`. -/
def observer (entry : DefinitionObserver × Nat) : Compose F DefinitionObserverId := do
  let self ← Call.get
  let value ←
    match entry.1.source with
    | .voltage positive negative => do
      let positive ← Call.expect self.nodeUnknowns[positive.index]?.join
      let negative ← Call.expect self.nodeUnknowns[negative.index]?.join
      onBuilder (voltageDifference positive negative)
    | .current _ _ => fun _ => .panic
    | .child _ _ => Call.expect self.forwardedObserverValues[entry.2]?.join
  let _ ← onBuilder (output value)
  Call.expect (Id.ofIndex? entry.2)

def compilePartition (definition : DeviceDefinition F) (circuit : Circuit F) (parentPartition : DevicePartitionId)
    (children : List (CompiledDefinition F)) (elementStateOffsets : List Nat) (definitionTerminals : List TerminalId) :
    Compose F (CompiledPartitionTemplate F) := do
  definitionTerminals.forM (terminal definition)
  let uses ← Call.expect ((childPartitions children).foldlM
    (useStates definition.elementPartitions parentPartition children elementStateOffsets)
    ⟨List.replicate definition.stateCount false, List.replicate definition.stateCount false,
      List.replicate definition.stateCount false⟩)
  (List.range definition.stateCount).forM (stateSlot uses)
  (childPartitions children).forM (child definition circuit parentPartition children elementStateOffsets)
  let definitionObservers ← Call.pushEach (fun _ entry => observer entry) []
    (definition.observers.zipIdx.filter fun entry => decide (entry.1.partition = parentPartition))
  let template ← onBuilder finish
  let self ← Call.get
  pure
    { definitionTerminals
      definitionParameters := self.definitionParameters
      definitionStates := self.definitionStates
      definitionStateReads := self.definitionStateReads
      definitionStateWrites := self.definitionStateWrites
      definitionObservers
      template }

end Composition

section Compiling

variable [F64 F]

def compileCompositePartition (definition : DeviceDefinition F) (circuit : Circuit F)
    (parentPartition : DevicePartitionId) (children : List (CompiledDefinition F)) (elementStateOffsets : List Nat) :
    Compile (CompiledPartitionTemplate F) := do
  let definitionTerminals ← Call.expect (definitionTerminalsForPartition definition parentPartition)
  fun _ =>
    match Composition.compilePartition definition circuit parentPartition children elementStateOffsets definitionTerminals
        { nodeUnknowns := List.replicate circuit.nodeCount none
          parameterValues := List.replicate definition.parameters.length none
          localStates := List.replicate definition.stateCount none
          forwardedObserverValues := List.replicate definition.observers.length none } with
    | .ok partition _ => .ok partition ()
    | .err error _ => .err (.template error) ()
    | .panic => .panic

/-- `compile` is how the children are compiled. -/
def compileComposite (compile : DeviceDefinition F → Compile (CompiledDefinition F)) (registry : DefinitionRegistry F)
    (definition : DeviceDefinition F) (circuit : Circuit F) :
    Compile (List (CompiledPartitionTemplate F) × List (DefinitionStateInitializer F) × List (FailedTickStateTransition F)) := do
  let compiledChildren ← Call.pushEach (fun _ element => do
    let childDefinition ← Call.expect (registry.get (Element.definition element))
    compile childDefinition) [] circuit.elements
  let (offsets, _) ← Call.expect (elementStateOffsets compiledChildren)
  let partitions ← Call.pushEach (fun _ parentPartitionIndex => do
    let parentPartition ← Call.expect (Id.ofIndex? parentPartitionIndex)
    compileCompositePartition definition circuit parentPartition compiledChildren offsets) []
    (List.range definition.partitionCount)
  pure (partitions, compiledChildren.flatMap CompiledDefinition.stateInitializers,
    compiledChildren.flatMap CompiledDefinition.failedTickTransitions)

/-- The fuel bounds how deep definitions are nested. -/
def CompiledDefinition.compile (registry : DefinitionRegistry F) : Nat → DeviceDefinition F → Compile (CompiledDefinition F)
  | 0, _ => fun _ => .panic
  | fuel + 1, definition =>
    match definition.body with
    | .primitive kind =>
      if kind = .tickDelay then do
        let partitions ← compileTickDelayPartitions definition
        CompiledDefinition.new partitions (primitiveStateInitializers kind) (primitiveFailedTickTransitions kind)
      else do
        let partition ← compilePrimitivePartition definition kind
        CompiledDefinition.new [partition] (primitiveStateInitializers kind) (primitiveFailedTickTransitions kind)
    | .composite circuit => do
      let (partitions, stateInitializers, failedTickTransitions) ←
        compileComposite (CompiledDefinition.compile registry fuel) registry definition circuit
      CompiledDefinition.new partitions stateInitializers failedTickTransitions

end Compiling

end Hynergy
