import Hynergy.Network.Reads
import Hynergy.Topology.DeviceTopology
import Hynergy.Topology.Store

/-!
# The derived topology

Nets are classes of connected wires, islands classes of device components joined through
nets. The maps between them are kept in both directions; the islands touched since the last
tick are listed as invalidated.
-/

namespace Hynergy

open Lib

variable {F : Type}

/-- One partition of one device. -/
structure DeviceComponent where
  device : DeviceId
  partition : DevicePartitionId
  deriving DecidableEq

structure IslandTopology where
  components : List DeviceComponent
  revision : Nat
  deriving DecidableEq

/-- `self.revision += 1` on a `u64`. -/
def IslandTopology.bumpRevision (self : IslandTopology) : IslandTopology :=
  { self with revision := (self.revision + 1) % 2 ^ 64 }

structure Net where
  wires : List WireId
  terminalComponents : List DeviceComponent
  deriving DecidableEq

structure PreparedDeviceTopologyInsert where
  location : DeviceLocation
  newChunk : Option DeviceTopologyChunk

structure PreparedDeviceTopologyRemoval where
  affectedNets : List NetId
  affectedIslands : List IslandId

/-! ### Invalidation -/

structure WorldInvalidation where
  topologyDirty : List IslandId := []
  numericalDirty : List IslandId := []
  bindingDirty : List IslandId := []
  retired : List IslandId := []
  deriving DecidableEq

namespace WorldInvalidation

/-- `push` unless it is there. -/
def pushNew (list : List IslandId) (island : IslandId) : List IslandId :=
  if island ∈ list then list else list ++ [island]

/-- `retain(|dirty| *dirty != island)`. -/
def without (list : List IslandId) (island : IslandId) : List IslandId := list.filter (· ≠ island)

def markTopologyDirty (self : WorldInvalidation) (island : IslandId) : WorldInvalidation :=
  if island ∈ self.retired then self
  else
    { self with
      numericalDirty := without self.numericalDirty island
      bindingDirty := without self.bindingDirty island
      topologyDirty := pushNew self.topologyDirty island }

def markBindingDirty (self : WorldInvalidation) (island : IslandId) : WorldInvalidation :=
  if island ∈ self.retired ∨ island ∈ self.topologyDirty then self
  else { self with bindingDirty := pushNew self.bindingDirty island }

def markNumericalDirty (self : WorldInvalidation) (island : IslandId) : WorldInvalidation :=
  if island ∈ self.retired ∨ island ∈ self.topologyDirty then self
  else { self with numericalDirty := pushNew self.numericalDirty island }

def markRetired (self : WorldInvalidation) (island : IslandId) : WorldInvalidation where
  topologyDirty := without self.topologyDirty island
  numericalDirty := without self.numericalDirty island
  bindingDirty := without self.bindingDirty island
  retired := pushNew self.retired island

end WorldInvalidation

/-! ### The state -/

structure DerivedTopology where
  nets : DenseIdStore .net Net := {}
  wireNetMap : List (Option NetId) := []
  islands : DenseIdStore .island IslandTopology := {}
  netIslandMap : List (Option IslandId) := []
  deviceChunks : List DeviceTopologyChunk := []
  invalidation : WorldInvalidation := {}

namespace DerivedTopology

/-- `wire_net`: the net of a live wire. -/
def wireNet (self : DerivedTopology) (wire : WireId) : Option NetId :=
  self.wireNetMap[wire.index]?.join

/-- `wire_net_map[wire] = net`. -/
def setWireNet (self : DerivedTopology) (wire : WireId) (net : Option NetId) :
    Option DerivedTopology := do
  let wireNetMap ← assign self.wireNetMap wire.index net
  some { self with wireNetMap }

/-- `net_island`; `none` where the index is out of range. -/
def netIsland (self : DerivedTopology) (net : NetId) : Option (Option IslandId) :=
  self.netIslandMap[net.index]?

def setNetIsland (self : DerivedTopology) (net : NetId) (island : Option IslandId) :
    Option DerivedTopology := do
  let netIslandMap ← assign self.netIslandMap net.index island
  some { self with netIslandMap }

def modifyNet (self : DerivedTopology) (net : NetId) (edit : Net → Net) : Option DerivedTopology := do
  let nets ← self.nets.modify net edit
  some { self with nets }

def modifyIsland (self : DerivedTopology) (island : IslandId)
    (edit : IslandTopology → IslandTopology) : Option DerivedTopology := do
  let islands ← self.islands.modify island edit
  some { self with islands }

def markTopologyDirty (self : DerivedTopology) (island : IslandId) : DerivedTopology :=
  { self with invalidation := self.invalidation.markTopologyDirty island }

def markRetired (self : DerivedTopology) (island : IslandId) : DerivedTopology :=
  { self with invalidation := self.invalidation.markRetired island }

/-- Chunk, row and partition of a component. -/
def componentLocation (self : DerivedTopology) (network : Network F) (component : DeviceComponent) :
    Option (Nat × Nat × Nat) := do
  let location ← network.locationOf component.device
  let chunk ← self.deviceChunks[location.chunkIndex]?
  if location.row < chunk.rowCount ∧ component.partition.index < chunk.partitionCount then
    some (location.chunkIndex, location.row, component.partition.index)
  else none

/-- Chunk and offset of a component in the chunk's flat list. -/
def componentStorageIndex (self : DerivedTopology) (network : Network F)
    (component : DeviceComponent) : Option (Nat × Nat) := do
  let (chunkIndex, row, partition) ← self.componentLocation network component
  let chunk ← self.deviceChunks[chunkIndex]?
  some (chunkIndex, row * chunk.partitionCount + partition)

def componentIsland (self : DerivedTopology) (network : Network F) (component : DeviceComponent) :
    Option IslandId := do
  let (chunkIndex, row, partition) ← self.componentLocation network component
  let chunk ← self.deviceChunks[chunkIndex]?
  chunk.componentIsland row partition

def setComponentIsland (self : DerivedTopology) (network : Network F) (component : DeviceComponent)
    (island : IslandId) : Option DerivedTopology := do
  let (chunkIndex, row, partition) ← self.componentLocation network component
  let chunk ← self.deviceChunks[chunkIndex]?
  let chunk ← chunk.setComponentIsland row partition island
  some { self with deviceChunks := self.deviceChunks.set chunkIndex chunk }

/-- The islands of a resident device's row. -/
def rowIslands (self : DerivedTopology) (network : Network F) (device : DeviceId) :
    Option (List IslandId) := do
  let location ← network.locationOf device
  let chunk ← self.deviceChunks[location.chunkIndex]?
  chunk.rowIslands location.row

def markDeviceNumericalDirty (self : DerivedTopology) (network : Network F) (device : DeviceId) :
    Option DerivedTopology := do
  let islands ← self.rowIslands network device
  some { self with
    invalidation := islands.foldl WorldInvalidation.markNumericalDirty self.invalidation }

def markDeviceBindingDirty (self : DerivedTopology) (network : Network F) (device : DeviceId) :
    Option DerivedTopology := do
  let islands ← self.rowIslands network device
  some { self with
    invalidation := islands.foldl WorldInvalidation.markBindingDirty self.invalidation }

def clearInvalidation (self : DerivedTopology) : DerivedTopology := { self with invalidation := {} }

end DerivedTopology

/-- The component a terminal belongs to. -/
def terminalComponent [F64 F] (definitions : DefinitionRegistry F) (network : Network F)
    (device : DeviceId) (terminal : TerminalId) : Option DeviceComponent := do
  let definitionId ← network.definitionIdOf device
  let definition ← definitions.get definitionId
  let partition ← definition.terminalPartitions[terminal.index]?
  some { device, partition }

end Hynergy
