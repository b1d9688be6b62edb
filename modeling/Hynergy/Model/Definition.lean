import Hynergy.Model.Ids
import Hynergy.Model.Parameter

/-!
# Device definitions

Circuits, the built-in primitives with their tables, and the derived partition layout.
-/

namespace Hynergy

variable {F : Type}

/-! ### Circuits -/

inductive ValueRef (F : Type) where
  | literal (value : F)
  | parameter (parameter : ParameterId)

structure Element (F : Type) where
  definition : DefinitionId
  terminals : List NodeId
  parameters : List (ValueRef F)

structure Circuit (F : Type) where
  nodeCount : Nat
  elements : List (Element F)

/-! ### Observers -/

inductive ObserverQuantity where
  | voltage | current
  deriving DecidableEq

inductive DefinitionObserverSource where
  | voltage (positive negative : NodeId)
  | current (positive negative : NodeId)
  | child (element : ElementId) (observer : DefinitionObserverId)
  deriving DecidableEq

structure DefinitionObserver where
  quantity : ObserverQuantity
  partition : DevicePartitionId
  source : DefinitionObserverSource
  deriving DecidableEq

/-! ### Partition layouts -/

structure DevicePartitionLayout where
  terminalPartitions : List DevicePartitionId
  elementPartitions : List DevicePartitionId
  partitionCount : Nat
  deriving DecidableEq

namespace DevicePartitionLayout

/-- The partition count of a list whose ids appear in order of first occurrence. -/
def canonicalExposedPartitionCount (terminalPartitions : List DevicePartitionId) : Option Nat :=
  terminalPartitions.foldlM (fun next partition =>
    if partition.index > next then none
    else if partition.index = next then some (next + 1)
    else some next) 0

def tryNew (terminalPartitions : List DevicePartitionId) : Option DevicePartitionLayout :=
  (canonicalExposedPartitionCount terminalPartitions).map fun partitionCount =>
    { terminalPartitions, elementPartitions := [], partitionCount }

def exposedPartitionCount (self : DevicePartitionLayout) : Nat :=
  (self.terminalPartitions.map (·.index + 1)).foldr max 0

end DevicePartitionLayout

/-! ### Primitives -/

inductive PrimitiveElementKind where
  | resistance
  | conductance
  | voltageSource
  | currentSource
  | voltageControlledCurrentSource
  | voltageControlledVoltageSource
  | capacitor
  | inductor
  | voltageControlledSwitch
  | voltageControlledConductance
  | tickDelay
  | diode
  | not
  | and
  | nand
  | or
  | nor
  | schmittBuffer
  deriving DecidableEq

inductive PrimitiveParameterError where
  | wrongParameterCount (expected actual : Nat)
  | invalidParameter (index : Nat) (source : ParameterConstraintError)
  | parameterMustBeGreater (greater lesser : Nat)
  deriving DecidableEq

namespace PrimitiveElementKind

def all : List PrimitiveElementKind :=
  [resistance, conductance, voltageSource, currentSource, voltageControlledCurrentSource,
    voltageControlledVoltageSource, capacitor, inductor, voltageControlledSwitch,
    voltageControlledConductance, tickDelay, diode, not, and, nand, or, nor, schmittBuffer]

def count : Nat := all.length

def parameterCount : PrimitiveElementKind → Nat
  | resistance => 1
  | conductance => 1
  | voltageSource => 1
  | currentSource => 1
  | voltageControlledCurrentSource => 1
  | voltageControlledVoltageSource => 1
  | capacitor => 1
  | inductor => 1
  | voltageControlledSwitch => 3
  | voltageControlledConductance => 4
  | tickDelay => 0
  | diode => 2
  | not | and | nand | or | nor => 3
  | schmittBuffer => 4

def stateCount : PrimitiveElementKind → Nat
  | capacitor | inductor | tickDelay | schmittBuffer => 1
  | _ => 0

private def node (n : Nat) (h : n < 2 ^ 32 := by decide) : NodeId := ⟨n, h⟩

private def partition (n : Nat) (h : n < 2 ^ 16 := by decide) : DevicePartitionId := ⟨n, h⟩

def observers (self : PrimitiveElementKind) : List DefinitionObserver :=
  let p0 := partition 0
  let p1 := partition 1
  let voltage positive negative partition : DefinitionObserver :=
    ⟨.voltage, partition, .voltage positive negative⟩
  let current positive negative partition : DefinitionObserver :=
    ⟨.current, partition, .current positive negative⟩
  match self with
  | resistance | conductance | voltageSource | currentSource | capacitor | inductor | diode =>
    [voltage (node 0) (node 1) p0, current (node 0) (node 1) p0]
  | not | schmittBuffer =>
    [voltage (node 0) (node 2) p0, voltage (node 3) (node 2) p0, current (node 1) (node 0) p0]
  | and | nand | or | nor =>
    [voltage (node 0) (node 2) p0, voltage (node 3) (node 2) p0, voltage (node 4) (node 2) p0,
      current (node 1) (node 0) p0]
  | voltageControlledCurrentSource | voltageControlledVoltageSource | voltageControlledSwitch =>
    [voltage (node 0) (node 1) p0, voltage (node 2) (node 3) p0, current (node 0) (node 1) p0]
  | voltageControlledConductance =>
    [voltage (node 0) (node 1) p0, voltage (node 2) (node 1) p0, current (node 0) (node 1) p0]
  | tickDelay =>
    [voltage (node 0) (node 1) p0, voltage (node 2) (node 3) p1, current (node 2) (node 3) p1]

/-- The terminal nodes and, for each, its partition. -/
def terminalLayout (self : PrimitiveElementKind) : List NodeId × List DevicePartitionId :=
  match self with
  | resistance | conductance | voltageSource | currentSource | capacitor | inductor | diode =>
    ([node 0, node 1], [partition 0, partition 0])
  | not | schmittBuffer =>
    ([node 0, node 1, node 2, node 3], [partition 0, partition 0, partition 0, partition 0])
  | and | nand | or | nor =>
    ([node 0, node 1, node 2, node 3, node 4],
      [partition 0, partition 0, partition 0, partition 0, partition 0])
  | voltageControlledCurrentSource | voltageControlledVoltageSource | voltageControlledSwitch =>
    ([node 0, node 1, node 2, node 3], [partition 0, partition 0, partition 0, partition 0])
  | voltageControlledConductance =>
    ([node 0, node 1, node 2], [partition 0, partition 0, partition 0])
  | tickDelay =>
    ([node 0, node 1, node 2, node 3], [partition 0, partition 0, partition 1, partition 1])

/-- Primitive terminal partitions are canonical, so `try_new` succeeds. -/
theorem tryNew_terminalLayout (self : PrimitiveElementKind) :
    (DevicePartitionLayout.tryNew self.terminalLayout.2).isSome := by
  cases self <;> decide

def partitionLayout (self : PrimitiveElementKind) : List NodeId × DevicePartitionLayout :=
  (self.terminalLayout.1,
    (DevicePartitionLayout.tryNew self.terminalLayout.2).get self.tryNew_terminalLayout)

theorem terminalLayout_partitioned (self : PrimitiveElementKind) :
    (self.partitionLayout.2.terminalPartitions.length = self.partitionLayout.1.length ∧
      ∀ partition ∈ self.partitionLayout.2.terminalPartitions,
        partition.index < self.partitionLayout.2.partitionCount) ∧
      self.partitionLayout.2.partitionCount ≤ 2 := by
  cases self <;> decide

variable [F64 F]

def parameterConstraints (self : PrimitiveElementKind) : List (ParameterConstraints F) :=
  let unrestricted : ParameterConstraints F := {}
  let positive : ParameterConstraints F := { lower := some ⟨F64.zero, false⟩ }
  let nonNegative : ParameterConstraints F := { lower := some ⟨F64.zero, true⟩ }
  match self with
  | resistance => [positive]
  | conductance => [nonNegative]
  | voltageSource => [unrestricted]
  | currentSource => [unrestricted]
  | voltageControlledCurrentSource => [unrestricted]
  | voltageControlledVoltageSource => [unrestricted]
  | capacitor => [positive]
  | inductor => [positive]
  -- threshold, G_max, G_min
  | voltageControlledSwitch => [unrestricted, positive, nonNegative]
  -- threshold relative to VSS, hysteresis width, G_max, G_min
  | schmittBuffer => [unrestricted, nonNegative, positive, nonNegative]
  -- V_threshold, V_transition, G_min, G_max
  | voltageControlledConductance => [unrestricted, positive, nonNegative, positive]
  -- G_max, G_min
  | diode => [positive, nonNegative]
  -- threshold relative to VSS, G_max, G_min
  | not | and | nand | or | nor => [unrestricted, positive, nonNegative]
  | tickDelay => []

def parameterConstraint (self : PrimitiveElementKind) (index : Nat) :
    Option (ParameterConstraints F) := self.parameterConstraints[index]?

/-- The pair of parameters of which the first must be greater than the second. -/
def parameterRelation : PrimitiveElementKind → Option (Nat × Nat)
  | voltageControlledSwitch => some (1, 2)
  | schmittBuffer => some (2, 3)
  | voltageControlledConductance => some (3, 2)
  | diode => some (0, 1)
  | not | and | nand | or | nor => some (1, 2)
  | _ => none

/-- `validate_parameter_relations`. -/
def validateParameterRelations (self : PrimitiveElementKind) (parameters : List F) :
    Except PrimitiveParameterError Unit :=
  if parameters.length ≠ self.parameterCount then
    .error (.wrongParameterCount self.parameterCount parameters.length)
  else
    match self.parameterRelation with
    | none => .ok ()
    | some (greater, lesser) =>
      match parameters[greater]?, parameters[lesser]? with
      | some g, some l => if F64.le g l then .error (.parameterMustBeGreater greater lesser) else .ok ()
      | _, _ => .ok ()

end PrimitiveElementKind

/-! ### Definitions -/

inductive DeviceBody (F : Type) where
  | primitive (kind : PrimitiveElementKind)
  | composite (circuit : Circuit F)

structure DeviceDefinition (F : Type) where
  body : DeviceBody F
  terminals : List NodeId
  paramConstraints : List (ParameterConstraints F)
  partitionLayout : DevicePartitionLayout
  stateCount : Nat
  observers : List DefinitionObserver

namespace DeviceDefinition

abbrev parameters (self : DeviceDefinition F) : List (ParameterConstraints F) := self.paramConstraints

abbrev terminalPartitions (self : DeviceDefinition F) : List DevicePartitionId :=
  self.partitionLayout.terminalPartitions

abbrev elementPartitions (self : DeviceDefinition F) : List DevicePartitionId :=
  self.partitionLayout.elementPartitions

abbrev partitionCount (self : DeviceDefinition F) : Nat := self.partitionLayout.partitionCount

abbrev exposedPartitionCount (self : DeviceDefinition F) : Nat :=
  self.partitionLayout.exposedPartitionCount

def observer (self : DeviceDefinition F) (observer : DefinitionObserverId) :
    Option DefinitionObserver := self.observers[observer.index]?

/-- The terminals of a definition are partitioned. -/
structure Partitioned (definition : DeviceDefinition F) : Prop where
  length : definition.terminalPartitions.length = definition.terminals.length
  inRange : ∀ partition ∈ definition.terminalPartitions, partition.index < definition.partitionCount
  bounded : definition.partitionCount ≤ 2 ^ 16

end DeviceDefinition

namespace PrimitiveElementKind

variable [F64 F]

def definition (self : PrimitiveElementKind) : DeviceDefinition F where
  body := .primitive self
  terminals := self.partitionLayout.1
  paramConstraints := self.parameterConstraints
  partitionLayout := self.partitionLayout.2
  stateCount := self.stateCount
  observers := self.observers

theorem definition_partitioned (self : PrimitiveElementKind) :
    (self.definition : DeviceDefinition F).Partitioned := by
  obtain ⟨⟨length, inRange⟩, bounded⟩ := self.terminalLayout_partitioned
  exact ⟨length, inRange, bounded.trans (by decide)⟩

/-- `kind as u32`. -/
def discriminant : PrimitiveElementKind → Nat
  | resistance => 0
  | conductance => 1
  | voltageSource => 2
  | currentSource => 3
  | voltageControlledCurrentSource => 4
  | voltageControlledVoltageSource => 5
  | capacitor => 6
  | inductor => 7
  | voltageControlledSwitch => 8
  | voltageControlledConductance => 9
  | tickDelay => 10
  | diode => 11
  | not => 12
  | and => 13
  | nand => 14
  | or => 15
  | nor => 16
  | schmittBuffer => 17

theorem discriminant_lt (self : PrimitiveElementKind) : self.discriminant + 1 < 2 ^ 32 := by
  cases self <;> decide

/-- `DefinitionId::from(kind)`. -/
def definitionId (self : PrimitiveElementKind) : DefinitionId :=
  .ofIndex self.discriminant self.discriminant_lt

theorem all_discriminant (self : PrimitiveElementKind) : all[self.discriminant]? = some self := by
  cases self <;> rfl

end PrimitiveElementKind

end Hynergy
