import Hynergy.State.PhysicalState
import Hynergy.Topology.DeviceMarks
import Hynergy.Topology.Operations
import Hynergy.World.Subscription

/-!
# Commands on a world

The stores of a world that commands work on, and the commands. A command edits the network
first and has the other stores follow.
-/

namespace Hynergy

variable {F : Type}

/-- What commands read and write of a world. -/
structure Stores (F : Type) where
  network : Network F := {}
  subscriptions : SubscriptionRegistry := {}
  derivedTopology : DerivedTopology := {}
  topologyScratch : TraversalScratch := {}
  physicalState : PhysicalStateStore F := {}

inductive WorldCommand (F : Type) where
  | addWire (wire : WireId)
  | removeWire (wire : WireId)
  | connectWires (wireA wireB : WireId)
  | disconnectWires (wireA wireB : WireId)
  | addDevice (device : DeviceId) (definition : DefinitionId)
  | removeDevice (device : DeviceId)
  | attachTerminal (wire : WireId) (device : DeviceId) (terminal : TerminalId)
  | detachTerminal (wire : WireId) (device : DeviceId) (terminal : TerminalId)
  | setDeviceParameter (device : DeviceId) (parameter : ParameterId) (value : F)

namespace Stores

/-- A call on the stores. -/
abbrev Command (F α : Type) := Call (Stores F) NetworkModelError α

/-- A call on the network. -/
def onNetwork {α : Type} (call : Call (Network F) NetworkModelError α) : Command F α :=
  Call.zoom Stores.network (fun self network => { self with network }) id call

/-- An edit of the derived topology; `none` is a panic. -/
def retopologize (edit : Network F → DerivedTopology → Option DerivedTopology) : Command F Unit := do
  let self ← Call.get
  let derivedTopology ← Call.expect (edit self.network self.derivedTopology)
  Call.set { self with derivedTopology }

/-- An edit of the derived topology that uses the scratch. -/
def retraverse (edit : Network F → DerivedTopology → TraversalScratch →
    Option (DerivedTopology × TraversalScratch)) : Command F Unit := do
  let self ← Call.get
  let (derivedTopology, topologyScratch) ←
    Call.expect (edit self.network self.derivedTopology self.topologyScratch)
  Call.set { self with derivedTopology, topologyScratch }

def addWire (wire : WireId) : Command F Unit := do
  onNetwork (Network.addWire wire)
  retopologize fun _ topology => topology.addWire wire

variable [F64 F]

def removeWire (definitions : DefinitionRegistry F) (wire : WireId) : Command F Unit := do
  onNetwork (Network.removeWire wire)
  retraverse fun network topology scratch => topology.removeWire definitions network scratch wire

def connectWires (definitions : DefinitionRegistry F) (wireA wireB : WireId) : Command F Unit := do
  onNetwork (Network.connectWires wireA wireB)
  retopologize fun network topology => topology.connectWires definitions network wireA wireB

def disconnectWires (definitions : DefinitionRegistry F) (wireA wireB : WireId) : Command F Unit := do
  onNetwork (Network.disconnectWires wireA wireB)
  retraverse fun network topology scratch =>
    topology.disconnectWires definitions network scratch wireA wireB

def addDevice (definitions : DefinitionRegistry F) (device : DeviceId) (definition : DefinitionId) :
    Command F Unit := do
  let modelInsert ← onNetwork (Network.prepareAddDevice definitions device definition)
  let definition ← Call.expect (definitions.get definition)
  let self ← Call.get
  let stateInsert ← Call.expect (self.physicalState.prepareAddDevice definition modelInsert)
  let topologyInsert ← Call.expect (self.derivedTopology.prepareAddDevice definition modelInsert)
  let insert ← onNetwork (Network.commitAddDevice modelInsert)
  let self ← Call.get
  let physicalState ← Call.expect (self.physicalState.commitAddDevice stateInsert insert)
  Call.set { self with physicalState }
  retopologize fun _ topology => topology.commitAddDevice device topologyInsert insert

/-- `mark_device_binding_dirty` for each of the devices. -/
def markMoved (devices : List DeviceId) : Command F Unit :=
  devices.forM fun moved => retopologize fun network topology => topology.markDeviceBindingDirty network moved

def removeDevice (definitions : DefinitionRegistry F) (device : DeviceId) : Command F Unit := do
  let self ← Call.get
  let topologyRemoval ← Call.expect (self.derivedTopology.prepareDeviceRemoval self.network device)
  let removal ← onNetwork (Network.removeDevice device)
  let self ← Call.get
  let physicalState ← Call.expect (self.physicalState.removeDevice removal)
  Call.set { self with physicalState }
  retraverse fun network topology scratch =>
    topology.removeDevice definitions network scratch device topologyRemoval removal
  markMoved removal.movedDevice.toList
  match removal.chunkRelocation with
  | none => pure ()
  | some relocation => do
    let self ← Call.get
    let movedDevices ← Call.expect (self.network.deviceIdsInChunk relocation.toChunk)
    markMoved movedDevices
  Call.modify fun self => { self with subscriptions := self.subscriptions.removeDevice device }

def attachTerminal (definitions : DefinitionRegistry F) (wire : WireId) (device : DeviceId)
    (terminal : TerminalId) : Command F Unit := do
  onNetwork (Network.attachTerminal wire device terminal)
  retopologize fun network topology => topology.attachTerminal definitions network wire device terminal

def detachTerminal (definitions : DefinitionRegistry F) (wire : WireId) (device : DeviceId)
    (terminal : TerminalId) : Command F Unit := do
  onNetwork (Network.detachTerminal wire device terminal)
  retraverse fun network topology scratch =>
    topology.detachTerminal definitions network scratch wire device terminal

def setDeviceParameter (definitions : DefinitionRegistry F) (device : DeviceId) (parameter : ParameterId)
    (value : F) : Command F Unit := do
  onNetwork (Network.setDeviceParameter definitions device parameter value)
  retopologize fun network topology => topology.markDeviceNumericalDirty network device

def applyCommand (definitions : DefinitionRegistry F) : WorldCommand F → Command F Unit
  | .addWire wire => addWire wire
  | .removeWire wire => removeWire definitions wire
  | .connectWires wireA wireB => connectWires definitions wireA wireB
  | .disconnectWires wireA wireB => disconnectWires definitions wireA wireB
  | .addDevice device definition => addDevice definitions device definition
  | .removeDevice device => removeDevice definitions device
  | .attachTerminal wire device terminal => attachTerminal definitions wire device terminal
  | .detachTerminal wire device terminal => detachTerminal definitions wire device terminal
  | .setDeviceParameter device parameter value => setDeviceParameter definitions device parameter value

end Stores

end Hynergy
