import Hynergy.Model.Registry
import Hynergy.Network.DeviceArena

/-!
# The network

Wires and devices. A wire keeps the references it is connected to, a device row keeps the
wire attached to each terminal; each edge is stored at both of its ends.
-/

namespace Hynergy

open Lib

variable {F : Type}

abbrev WireSlot := List ConnectionRef

namespace WireSlot

def addConnection (self : WireSlot) (connection : ConnectionRef) : WireSlot := self ++ [connection]

/-- `remove_connection`, with whether the connection was there. -/
def removeConnection (self : WireSlot) (connection : ConnectionRef) : Bool × WireSlot :=
  match self.findIdx? (· = connection) with
  | none => (false, self)
  | some index => (true, swapRemove self index)

def containsConnection (self : WireSlot) (connection : ConnectionRef) : Bool :=
  decide (connection ∈ self)

end WireSlot

structure Network (F : Type) where
  wires : List (Option WireSlot) := []
  deviceArena : DeviceArena F := {}

namespace Network

/-- A call on the device arena. -/
def arena {α : Type} (call : Call (DeviceArena F) NetworkModelError α) :
    Call (Network F) NetworkModelError α :=
  Call.zoom Network.deviceArena (fun self deviceArena => { self with deviceArena }) id call

/-- The slot of a live wire. -/
def wireSlot (self : Network F) (id : WireId) : Option WireSlot := self.wires[id.index]?.join

/-- `wire_connections(wire)?` and the lookups written out like it. -/
def wireConnections (id : WireId) : Call (Network F) NetworkModelError WireSlot := do
  let self ← Call.get
  Call.okOr (self.wireSlot id) (.idNotAssigned .wire id.get)

def setWire (self : Network F) (id : WireId) (slot : Option WireSlot) : Network F :=
  { self with wires := self.wires.set id.index slot }

/-- `wire_mut(wire)?` with the edit made through it. -/
def editWire (id : WireId) (edit : WireSlot → WireSlot) :
    Call (Network F) NetworkModelError Unit := do
  let slot ← wireConnections id
  Call.modify (·.setWire id (some (edit slot)))

def terminalConnection (device : DeviceId) (terminal : TerminalId) :
    Call (Network F) NetworkModelError (Option ConnectionRef) :=
  arena (DeviceArena.terminalConnection device terminal)

def terminalRef (device : DeviceId) (terminal : TerminalId) :
    Call (Network F) NetworkModelError ConnectionRef :=
  Call.okOr (ConnectionRef.terminal? device terminal) .invalidTerminal

def device [F64 F] (device : DeviceId) : Call (Network F) NetworkModelError (DeviceView F) :=
  arena (DeviceArena.device device)

def deviceLocation (self : Network F) (device : DeviceId) :
    Except NetworkModelError DeviceLocation := self.deviceArena.location device

def unlinkOneWay (endpoint peer : ConnectionRef) : Call (Network F) NetworkModelError Unit :=
  match endpoint with
  | .wire id => do
    let self ← Call.get
    let slot ← Call.expect (self.wireSlot id)
    Call.set (self.setWire id (some (slot.removeConnection peer).2))
  | .terminal device terminal _ => do
    let _current ← Call.expectOk (terminalConnection device terminal)
    let _removed ← Call.expectOk (arena (DeviceArena.detachTerminal device terminal))
    pure ()

/-! ### Wires -/

def addWire (id : WireId) : Call (Network F) NetworkModelError Unit := do
  Call.rejectIf (id.get > maxPackedId) (.idExceeds31Bit id.get)
  let self ← Call.get
  let index := id.index
  let len := self.wires.length
  Call.rejectIf (index > len) (.idOutOfBound id.get len)
  if index = len then
    Call.set { self with wires := self.wires ++ [some []] }
  else do
    Call.rejectIf ((self.wireSlot id).isSome = true) (.idAlreadyAssigned id.get)
    Call.set (self.setWire id (some []))

def removeWire (id : WireId) : Call (Network F) NetworkModelError Unit := do
  let self ← Call.get
  let len := self.wires.length
  Call.rejectIf (id.index ≥ len) (.idOutOfBound id.get len)
  -- `take` leaves the slot empty whether or not it held a wire
  Call.set (self.setWire id none)
  let slot ← Call.okOr (self.wireSlot id) (.idNotAssigned .wire id.get)
  slot.forM fun connection => unlinkOneWay connection (.wire id)

def connectWires (wireA wireB : WireId) : Call (Network F) NetworkModelError Unit := do
  Call.rejectIf (wireA = wireB) .wireConnectToSelf
  let self ← Call.get
  Call.rejectIf (wireA.index ≥ self.wires.length) (.idNotAssigned .wire wireA.get)
  Call.rejectIf (wireB.index ≥ self.wires.length) (.idNotAssigned .wire wireB.get)
  let aSlot ← Call.okOr (self.wireSlot wireA) (.idNotAssigned .wire wireA.get)
  let bSlot ← Call.okOr (self.wireSlot wireB) (.idNotAssigned .wire wireB.get)
  let aConnected := aSlot.containsConnection (.wire wireB)
  let bConnected := bSlot.containsConnection (.wire wireA)
  Call.rejectIf ((aConnected || bConnected) = true) .alreadyConnected
  Call.set ((self.setWire wireA (some (aSlot.addConnection (.wire wireB)))).setWire wireB
    (some (bSlot.addConnection (.wire wireA))))

def disconnectWires (wireA wireB : WireId) : Call (Network F) NetworkModelError Unit := do
  Call.rejectIf (wireA = wireB) .wireConnectToSelf
  let self ← Call.get
  Call.rejectIf (wireA.index ≥ self.wires.length) (.idNotAssigned .wire wireA.get)
  Call.rejectIf (wireB.index ≥ self.wires.length) (.idNotAssigned .wire wireB.get)
  let aSlot ← Call.okOr (self.wireSlot wireA) (.idNotAssigned .wire wireA.get)
  let bSlot ← Call.okOr (self.wireSlot wireB) (.idNotAssigned .wire wireB.get)
  let aConnected := aSlot.containsConnection (.wire wireB)
  let bConnected := bSlot.containsConnection (.wire wireA)
  Call.rejectIf ((!aConnected || !bConnected) = true) .notConnected
  Call.set ((self.setWire wireA (some (aSlot.removeConnection (.wire wireB)).2)).setWire wireB
    (some (bSlot.removeConnection (.wire wireA)).2))

/-! ### Terminals -/

def attachTerminal (wire : WireId) (device : DeviceId) (terminal : TerminalId) :
    Call (Network F) NetworkModelError Unit := do
  let _wireSlot ← wireConnections wire
  let connection ← terminalConnection device terminal
  let terminalRef ← terminalRef device terminal
  Call.rejectIf (connection.isSome = true) .terminalAlreadyConnected
  arena (DeviceArena.attachTerminal device terminal (.wire wire))
  editWire wire (·.addConnection terminalRef)

def detachTerminal (wire : WireId) (device : DeviceId) (terminal : TerminalId) :
    Call (Network F) NetworkModelError Unit := do
  let wireSlot ← wireConnections wire
  let terminalRef ← terminalRef device terminal
  let connection ← terminalConnection device terminal
  Call.rejectIf (connection ≠ some (.wire wire) ∨ wireSlot.containsConnection terminalRef = false)
    .notConnected
  let _removed ← arena (DeviceArena.detachTerminal device terminal)
  editWire wire fun slot => (slot.removeConnection terminalRef).2

/-! ### Devices -/

def prepareAddDevice (definitionRegistry : DefinitionRegistry F) (id : DeviceId)
    (definitionId : DefinitionId) :
    Call (Network F) NetworkModelError (PreparedDeviceInsert F) := do
  Call.rejectIf (id.get > maxPackedId) (.idExceeds31Bit id.get)
  let self ← Call.get
  let index := id.index
  let len := self.deviceArena.directoryLen
  Call.rejectIf (index > len) (.idOutOfBound id.get len)
  Call.rejectIf (index < len ∧ self.deviceArena.isAssigned id = true) (.idAlreadyAssigned id.get)
  let definition ← Call.okOr (definitionRegistry.get definitionId) (.unknownDefinition definitionId)
  arena (DeviceArena.prepareInsert id definitionId definition)

def commitAddDevice [F64 F] (prepared : PreparedDeviceInsert F) :
    Call (Network F) NetworkModelError DeviceInsertResult :=
  arena (DeviceArena.commitInsert prepared)

def addDevice [F64 F] (definitionRegistry : DefinitionRegistry F) (id : DeviceId)
    (definitionId : DefinitionId) : Call (Network F) NetworkModelError DeviceInsertResult := do
  let prepared ← prepareAddDevice definitionRegistry id definitionId
  commitAddDevice prepared

/-- The loop of `remove_device` over the stored terminals. -/
def unlinkTerminals (id : DeviceId) :
    Nat → List (Option ConnectionRef) → Call (Network F) NetworkModelError Unit
  | _, [] => pure ()
  | terminalIndex, none :: rest => unlinkTerminals id (terminalIndex + 1) rest
  | terminalIndex, some connection :: rest =>
    if connection.connectionType = .device ∧ connection.index = id.index then
      unlinkTerminals id (terminalIndex + 1) rest
    else do
      let terminal ← Call.expect (Id.ofIndex? terminalIndex : Option TerminalId)
      let removedRef ← Call.expectOk (terminalRef id terminal)
      unlinkOneWay connection removedRef
      unlinkTerminals id (terminalIndex + 1) rest

def removeDevice [F64 F] (id : DeviceId) : Call (Network F) NetworkModelError DeviceRemoveResult := do
  let self ← Call.get
  let len := self.deviceArena.directoryLen
  Call.rejectIf (id.index ≥ len) (.idOutOfBound id.get len)
  let view ← device id
  unlinkTerminals id 0 view.terminals
  arena (DeviceArena.remove id)

def setDeviceParameter [F64 F] (definitionRegistry : DefinitionRegistry F) (id : DeviceId)
    (parameter : ParameterId) (value : F) : Call (Network F) NetworkModelError Unit := do
  let view ← device id
  let definition ← Call.okOr (definitionRegistry.get view.definitionId)
    (.unknownDefinition view.definitionId)
  let constraints ← Call.okOr definition.parameters[parameter.index]? (.invalidParameter parameter)
  Call.ofExcept (.parameterConstraintViolation parameter) (constraints.validate value)
  arena (DeviceArena.setParameter id parameter value)

end Network

end Hynergy
