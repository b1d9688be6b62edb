import Hynergy.Lib.SwapRemove
import Hynergy.Model.Outcome
import Hynergy.Model.Registry

/-!
# The definition builder

Composite definitions are assembled from elements of registered ones; the partition layout, the
state count and the partitions of the observers are derived when the definition is built.
-/

namespace Hynergy

open Lib

variable {F : Type}

inductive DeviceDefinitionBuilderError where
  | unknownDefinition (definitionId : DefinitionId)
  | terminalCountMismatch (definitionId : DefinitionId) (expected actual : List NodeId)
  | parameterCountMismatch (definitionId : DefinitionId) (expected actual : Nat)
  | nodeOutOfRange (terminalIndex : Nat) (node : NodeId) (nodeCount : Nat)
  | parameterOutOfRange (parameterIndex : Nat) (parameter : ParameterId) (parameterCount : Nat)
  | parameterConstraint (parameterIndex : Nat) (source : ParameterConstraintError)
  | primitiveParameters (definitionId : DefinitionId) (source : PrimitiveParameterError)
  | unusedInternalNode (node : NodeId)
  | nodeIdExhausted
  | parameterIdExhausted
  | elementIdExhausted
  | parameterConstraintsIncompatible (definitionId : DefinitionId) (parameterIndex : Nat)
      (parameter : ParameterId)
  | unusedParameter (parameter : ParameterId)
  | devicePartitionIdExhausted
  | stateCountExhausted
  | definitionObserverIdExhausted
  | observerNodeOutOfRange (node : NodeId) (nodeCount : Nat)
  | observerElementOutOfRange (element : ElementId) (elementCount : Nat)
  | childObserverOutOfRange (element : ElementId) (observer : DefinitionObserverId) (observerCount : Nat)
  | observerCrossesPartitions (positive negative : NodeId)
      (positivePartition negativePartition : DevicePartitionId)
  deriving DecidableEq

structure PendingDefinitionObserver where
  quantity : ObserverQuantity
  source : DefinitionObserverSource
  deriving DecidableEq

/-! ### Union-find -/

structure UnionFind where
  parents : List Nat
  ranks : List Nat

namespace UnionFind

def new (len : Nat) : UnionFind := ⟨List.range len, List.replicate len 0⟩

/-- The first loop of `find`, up to the root; the fuel is the number of nodes. -/
def rootOf (parents : List Nat) : Nat → Nat → Option Nat
  | 0, _ => none
  | fuel + 1, root => do
    let parent ← parents[root]?
    if parent = root then some root else rootOf parents fuel parent

/-- The second loop of `find`: every node on the way points to the root. -/
def compress (root : Nat) : Nat → List Nat → Nat → Option (List Nat)
  | 0, _, _ => none
  | fuel + 1, parents, node => do
    let parent ← parents[node]?
    if parent = node then some parents
    else do
      let parents ← assign parents node root
      compress root fuel parents parent

def find (self : UnionFind) (node : Nat) : Option (Nat × UnionFind) := do
  let root ← rootOf self.parents self.parents.length node
  let parents ← compress root self.parents.length self.parents node
  some (root, { self with parents })

def union (self : UnionFind) (a b : Nat) : Option UnionFind := do
  let (rootA, self) ← self.find a
  let (rootB, self) ← self.find b
  if rootA = rootB then some self
  else do
    let rankA ← self.ranks[rootA]?
    let rankB ← self.ranks[rootB]?
    let (rootA, rootB) := if rankA < rankB then (rootB, rootA) else (rootA, rootB)
    let parents ← assign self.parents rootB rootA
    let rank ← self.ranks[rootA]?
    -- `+= 1` on a `u8`
    let ranks ← if rankA = rankB then assign self.ranks rootA ((rank + 1) % 2 ^ 8) else some self.ranks
    some { parents, ranks }

end UnionFind

/-! ### Building -/

structure DeviceDefinitionBuilder (F : Type) where
  registry : DefinitionRegistry F
  terminals : List NodeId := []
  paramConstraints : List (ParameterConstraints F) := []
  nodeCount : Nat := 0
  elements : List (Element F) := []
  observers : List PendingDefinitionObserver := []

/-- `allocate_partition`: the next id, and the count after it. -/
def allocatePartition (nextPartition : Nat) :
    Except DeviceDefinitionBuilderError (DevicePartitionId × Nat) :=
  match Id.ofIndex? nextPartition with
  | none => .error .devicePartitionIdExhausted
  | some partition => .ok (partition, nextPartition + 1)

namespace DeviceDefinitionBuilder

/-- A call on the builder. -/
abbrev Build (F α : Type) := Call (DeviceDefinitionBuilder F) DeviceDefinitionBuilderError α

/-- `checked_add(1)` on the node count. -/
def allocateNode : Build F NodeId := do
  let self ← Call.get
  match Id.ofIndex? self.nodeCount with
  | none => Call.throw .nodeIdExhausted
  | some node => do
    Call.rejectIf (2 ^ 32 ≤ self.nodeCount + 1) .nodeIdExhausted
    Call.set { self with nodeCount := self.nodeCount + 1 }
    pure node

def addNode : Build F NodeId := allocateNode

def addTerminal : Build F NodeId := do
  let node ← allocateNode
  Call.modify fun self => { self with terminals := self.terminals ++ [node] }
  pure node

def addParameter (parameter : ParameterConstraints F) : Build F ParameterId := do
  let self ← Call.get
  let id ← Call.okOr (Id.ofIndex? self.paramConstraints.length) .parameterIdExhausted
  Call.set { self with paramConstraints := self.paramConstraints ++ [parameter] }
  pure id

/-- One parameter of an element against the constraint of the child's. -/
def validateParameter [F64 F] (definitionId : DefinitionId) (parameterIndex : Nat) (value : ValueRef F)
    (constraint : ParameterConstraints F) : Build F Unit := do
  let self ← Call.get
  match value with
  | .literal literal =>
    Call.ofExcept (.parameterConstraint parameterIndex) (constraint.validate literal)
  | .parameter parameter => do
    let parameterConstraints ← Call.okOr self.paramConstraints[parameter.index]?
      (.parameterOutOfRange parameterIndex parameter self.paramConstraints.length)
    Call.rejectIf (¬ parameterConstraints.isSubsetOf constraint = true)
      (.parameterConstraintsIncompatible definitionId parameterIndex parameter)

/-- The literals of a list of which every member is one. -/
def literals? : List (ValueRef F) → Option (List F)
  | [] => some []
  | .literal value :: rest => (literals? rest).map (value :: ·)
  | .parameter _ :: _ => none

def validateElement [F64 F] (element : Element F) : Build F Unit := do
  let self ← Call.get
  let definitionId := element.definition
  let definition ← Call.okOr (self.registry.get definitionId) (.unknownDefinition definitionId)
  Call.rejectIf (element.terminals.length ≠ definition.terminals.length)
    (.terminalCountMismatch definitionId definition.terminals element.terminals)
  Call.rejectIf (element.parameters.length ≠ definition.parameters.length)
    (.parameterCountMismatch definitionId definition.parameters.length element.parameters.length)
  element.terminals.zipIdx.forM fun (node, terminalIndex) =>
    Call.rejectIf (node.id ≥ self.nodeCount) (.nodeOutOfRange terminalIndex node self.nodeCount)
  (element.parameters.zip definition.parameters).zipIdx.forM fun ((value, constraint), parameterIndex) =>
    validateParameter definitionId parameterIndex value constraint
  match definition.body with
  | .composite _ => pure ()
  | .primitive kind =>
    match literals? element.parameters with
    | none => pure ()
    | some parameters =>
      Call.ofExcept (.primitiveParameters definitionId) (kind.validateParameterRelations parameters)

def addElement [F64 F] (element : Element F) : Build F ElementId := do
  validateElement element
  let self ← Call.get
  let id ← Call.okOr (Id.ofIndex? self.elements.length) .elementIdExhausted
  Call.set { self with elements := self.elements ++ [element] }
  pure id

def pushObserver (observer : PendingDefinitionObserver) : Build F DefinitionObserverId := do
  let self ← Call.get
  let id ← Call.okOr (Id.ofIndex? self.observers.length) .definitionObserverIdExhausted
  Call.set { self with observers := self.observers ++ [observer] }
  pure id

def validateObserverNode (node : NodeId) : Build F Unit := do
  let self ← Call.get
  Call.rejectIf (node.id ≥ self.nodeCount) (.observerNodeOutOfRange node self.nodeCount)

def addVoltageObserver (positive negative : NodeId) : Build F DefinitionObserverId := do
  validateObserverNode positive
  validateObserverNode negative
  pushObserver { quantity := .voltage, source := .voltage positive negative }

def addChildObserver (element : ElementId) (observer : DefinitionObserverId) :
    Build F DefinitionObserverId := do
  let self ← Call.get
  let elementDefinition ← Call.okOr self.elements[element.index]?
    (.observerElementOutOfRange element self.elements.length)
  let definition ← Call.expect (self.registry.get elementDefinition.definition)
  let childObserver ← Call.okOr (definition.observer observer)
    (.childObserverOutOfRange element observer definition.observers.length)
  pushObserver { quantity := childObserver.quantity, source := .child element observer }

/-! ### The derived parts -/

/-- A step of the derivations: `none` is a panic. -/
abbrev Derive (α : Type) := Option (Except DeviceDefinitionBuilderError α)

def Derive.bind {α β : Type} (step : Derive α) (next : α → Derive β) : Derive β :=
  match step with
  | none => none
  | some (.error error) => some (.error error)
  | some (.ok value) => next value

/-- A loop that may fail or panic. -/
def Derive.fold {α β : Type} (f : β → α → Derive β) : β → List α → Derive β
  | state, [] => some (.ok state)
  | state, x :: xs => (f state x).bind fun state => fold f state xs

def definitionOf (self : DeviceDefinitionBuilder F) (element : Element F) : Option (DeviceDefinition F) :=
  self.registry.get element.definition

/-- The body of the first loop over one element's terminals: a node joins the anchor of its
partition, or becomes it. -/
def joinTerminal (state : UnionFind × List Bool × List (Option Nat)) (terminal : NodeId × DevicePartitionId) :
    Option (UnionFind × List Bool × List (Option Nat)) := do
  let (unionFind, referenced, anchors) := state
  let nodeIndex := terminal.1.index
  let referenced ← assign referenced nodeIndex true
  let anchor ← anchors[terminal.2.index]?
  match anchor with
  | some anchor => do
    let unionFind ← unionFind.union nodeIndex anchor
    some (unionFind, referenced, anchors)
  | none => some (unionFind, referenced, anchors.set terminal.2.index (some nodeIndex))

def joinElement (self : DeviceDefinitionBuilder F) (state : UnionFind × List Bool) (element : Element F) :
    Option (UnionFind × List Bool) := do
  let (unionFind, referenced) := state
  let definition ← self.definitionOf element
  let anchors := List.replicate definition.exposedPartitionCount none
  let (unionFind, referenced, _) ← (element.terminals.zip definition.terminalPartitions).foldlM joinTerminal
    (unionFind, referenced, anchors)
  some (unionFind, referenced)

/-- The partition of a node's class, allocated if it has none. -/
def partitionOf (state : UnionFind × List (Option DevicePartitionId) × Nat) (node : Nat) :
    Derive (DevicePartitionId × UnionFind × List (Option DevicePartitionId) × Nat) :=
  let (unionFind, rootPartitions, nextPartition) := state
  match unionFind.find node with
  | none => none
  | some (root, unionFind) =>
    match rootPartitions[root]? with
    | none => none
    | some (some partition) => some (.ok (partition, unionFind, rootPartitions, nextPartition))
    | some none =>
      match allocatePartition nextPartition with
      | .error error => some (.error error)
      | .ok (partition, nextPartition) =>
        some (.ok (partition, unionFind, rootPartitions.set root (some partition), nextPartition))

/-- The partitions of the terminals, in order of first occurrence. -/
def deriveTerminalPartitions (terminals : List NodeId)
    (state : UnionFind × List (Option DevicePartitionId) × Nat) :
    Derive (List DevicePartitionId × UnionFind × List (Option DevicePartitionId) × Nat) :=
  Derive.fold (fun (partitions, state) (terminal : NodeId) =>
    (partitionOf state terminal.index).bind fun (partition, state) =>
      some (.ok (partitions ++ [partition], state))) ([], state) terminals

/-- The classes of the other referenced nodes. -/
def deriveInternalPartitions (referenced : List Bool)
    (state : UnionFind × List (Option DevicePartitionId) × Nat) :
    Derive (UnionFind × List (Option DevicePartitionId) × Nat) :=
  Derive.fold (fun state (isReferenced, nodeIndex) =>
    if isReferenced = true then
      (partitionOf state nodeIndex).bind fun (_, state) => some (.ok state)
    else some (.ok state)) state referenced.zipIdx

/-- The first terminal's node for each exposed partition of a child. -/
def partitionAnchors (element : Element F) (definition : DeviceDefinition F) : Option (List (Option Nat)) :=
  (element.terminals.zip definition.terminalPartitions).foldlM (fun anchors terminal => do
    let anchor ← anchors[terminal.2.index]?
    match anchor with
    | some _ => some anchors
    | none => some (anchors.set terminal.2.index (some terminal.1.index)))
    (List.replicate definition.exposedPartitionCount none)

/-- The partition of one partition of a child. -/
def childPartition (exposedPartitionCount : Nat) (anchors : List (Option Nat))
    (rootPartitions : List (Option DevicePartitionId))
    (state : List DevicePartitionId × UnionFind × Nat) (childPartitionIndex : Nat) :
    Derive (List DevicePartitionId × UnionFind × Nat) :=
  let (elementPartitions, unionFind, nextPartition) := state
  if childPartitionIndex < exposedPartitionCount then
    (do let nodeIndex ← anchors[childPartitionIndex]?.join
        let (root, unionFind) ← unionFind.find nodeIndex
        let partition ← rootPartitions[root]?.join
        some (elementPartitions ++ [partition], unionFind, nextPartition)).map .ok
  else
    match allocatePartition nextPartition with
    | .error error => some (.error error)
    | .ok (partition, nextPartition) =>
      some (.ok (elementPartitions ++ [partition], unionFind, nextPartition))

def elementPartitionsOf (self : DeviceDefinitionBuilder F) (rootPartitions : List (Option DevicePartitionId))
    (state : List DevicePartitionId × UnionFind × Nat) (element : Element F) :
    Derive (List DevicePartitionId × UnionFind × Nat) :=
  match self.definitionOf element with
  | none => none
  | some definition =>
    match partitionAnchors element definition with
    | none => none
    | some anchors =>
      Derive.fold (childPartition definition.exposedPartitionCount anchors rootPartitions) state
        (List.range definition.partitionCount)

/-- `checked_add` of a count of each child. -/
def sumChildren (self : DeviceDefinitionBuilder F) (count : DeviceDefinition F → Nat)
    (exhausted : DeviceDefinitionBuilderError) : Derive Nat :=
  Derive.fold (fun total element =>
    match self.definitionOf element with
    | none => none
    | some definition =>
      if total + count definition < 2 ^ 64 then some (.ok (total + count definition))
      else some (.error exhausted)) 0 self.elements

def deriveStateCount (self : DeviceDefinitionBuilder F) : Derive Nat :=
  self.sumChildren DeviceDefinition.stateCount .stateCountExhausted

/-- An internal node no element uses. -/
def unusedNode (self : DeviceDefinitionBuilder F) (referenced : List Bool) : Option Nat :=
  let exposed := self.terminals.map (·.index)
  (List.range self.nodeCount).find? fun node => decide (node ∉ exposed) && !(referenced[node]?.getD false)

def derivePartitionLayout (self : DeviceDefinitionBuilder F) :
    Derive (DevicePartitionLayout × List DevicePartitionId) :=
  let nodeCount := self.nodeCount
  match self.elements.foldlM self.joinElement (.new nodeCount, List.replicate nodeCount false) with
  | none => none
  | some (unionFind, referenced) =>
    -- `exposed_node[terminal]`
    if ¬ ∀ terminal ∈ self.terminals, terminal.index < nodeCount then none
    else
      match self.unusedNode referenced with
      | some node =>
        match Id.ofIndex? node with
        | none => none
        | some node => some (.error (.unusedInternalNode node))
      | none =>
        (deriveTerminalPartitions self.terminals (unionFind, List.replicate nodeCount none, 0)).bind
          fun (terminalPartitions, state) =>
        (deriveInternalPartitions referenced state).bind fun (unionFind, rootPartitions, nextPartition) =>
        (self.sumChildren DeviceDefinition.partitionCount .devicePartitionIdExhausted).bind fun _ =>
        (Derive.fold (self.elementPartitionsOf rootPartitions) ([], unionFind, nextPartition) self.elements).bind
          fun (elementPartitions, unionFind, nextPartition) =>
        match (List.range nodeCount).foldlM (fun (nodePartitions, (unionFind : UnionFind)) node => do
            let (root, unionFind) ← unionFind.find node
            let partition ← rootPartitions[root]?.join
            some (nodePartitions ++ [partition], unionFind)) (([] : List DevicePartitionId), unionFind) with
        | none => none
        | some (nodePartitions, _) =>
          some (.ok ({ terminalPartitions, elementPartitions, partitionCount := nextPartition },
            nodePartitions))

/-- Where each element's partitions start. -/
def elementPartitionOffsets (self : DeviceDefinitionBuilder F) : Option (List Nat × Nat) :=
  self.elements.foldlM (fun (offsets, offset) element => do
    let definition ← self.definitionOf element
    if offset + definition.partitionCount < 2 ^ 64 then
      some (offsets ++ [offset], offset + definition.partitionCount)
    else none) ([], 0)

def observerPartition (self : DeviceDefinitionBuilder F) (layout : DevicePartitionLayout)
    (nodePartitions : List DevicePartitionId) (offsets : List Nat) (pending : PendingDefinitionObserver) :
    Derive DevicePartitionId :=
  match pending.source with
  | .voltage positive negative =>
    match nodePartitions[positive.index]?, nodePartitions[negative.index]? with
    | some positivePartition, some negativePartition =>
      if positivePartition ≠ negativePartition then
        some (.error (.observerCrossesPartitions positive negative positivePartition negativePartition))
      else some (.ok positivePartition)
    | _, _ => none
  | .current .. => none
  | .child element observer =>
    (do let childElement ← self.elements[element.index]?
        let childDefinition ← self.definitionOf childElement
        let childObserver ← childDefinition.observer observer
        let offset ← offsets[element.index]?
        let flatPartition := offset + childObserver.partition.index
        if flatPartition < 2 ^ 64 then layout.elementPartitions[flatPartition]? else none).map .ok

def deriveObservers (self : DeviceDefinitionBuilder F) (layout : DevicePartitionLayout)
    (nodePartitions : List DevicePartitionId) : Derive (List DefinitionObserver) :=
  match self.elementPartitionOffsets with
  | none => none
  | some (offsets, _) =>
    Derive.fold (fun observers pending =>
      (self.observerPartition layout nodePartitions offsets pending).bind fun partition =>
        some (.ok (observers ++ [⟨pending.quantity, partition, pending.source⟩]))) [] self.observers

/-- Every parameter is passed to some element. -/
def validateParameterUsage (self : DeviceDefinitionBuilder F) : Derive Unit :=
  let used := self.elements.flatMap fun element => element.parameters.filterMap fun value =>
    match value with
    | .parameter parameter => some parameter.index
    | .literal _ => none
  -- `used[parameter]`
  if self.paramConstraints ≠ [] ∧ ¬ ∀ index ∈ used, index < self.paramConstraints.length then none
  else
    match (List.range self.paramConstraints.length).find? fun index => decide (index ∉ used) with
    | none => some (.ok ())
    | some index =>
      match Id.ofIndex? index with
      | none => none
      | some parameter => some (.error (.unusedParameter parameter))

def buildDefinition (self : DeviceDefinitionBuilder F) : Derive (DeviceDefinition F) :=
  self.validateParameterUsage.bind fun _ =>
  self.deriveStateCount.bind fun stateCount =>
  self.derivePartitionLayout.bind fun (partitionLayout, nodePartitions) =>
  (self.deriveObservers partitionLayout nodePartitions).bind fun observers =>
    some (.ok
      { body := .composite { nodeCount := self.nodeCount, elements := self.elements }
        terminals := self.terminals, paramConstraints := self.paramConstraints, partitionLayout, stateCount,
        observers })

end DeviceDefinitionBuilder

end Hynergy
