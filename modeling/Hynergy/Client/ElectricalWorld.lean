import Hynergy.Client.IdOperations
import Hynergy.Client.WorldCommandBuffer
import Hynergy.Protocol.WorldApply

/-!
# A world of the client

`ElectricalWorld`: operations take ids ahead of the engine and write commands into a buffer; the
buffer is applied as one batch. An append that throws is rolled back, and a failure that cannot be
repaired poisons the world. It is never closed here.
-/

namespace Hynergy

open Lib

variable {F : Type}

/-- A record of a tick, as the engine writes it. -/
structure SubscriptionRecord where
  subscriptionId : SubscriptionId
  observation : PublishedObservation
  deriving DecidableEq

/-- The world behind the handle comes last. -/
structure ElectricalWorld (F : Type) where
  wireIds : WorldIdAllocator := {}
  deviceIds : WorldIdAllocator := {}
  commandBuffer : WorldCommandBuffer
  recordCapacity : Nat := 0
  records : List SubscriptionRecord := []
  poisoned : Bool := false
  world : Stores F := {}

/-- What an operation throws; where the engine fails, with its error. -/
inductive WorldException where
  | java (exception : JavaException)
  | commandsFailed (error : WorldCommandError)
  | commandsPanicked
  | subscriptionFailed (error : SubscriptionError)
  | invalidDeviceId
  | invalidSubscriptionId
  | subscriptionPanicked
  | tickFailed (failure : TickFailure)
  | tickPanicked

/-- Which allocations of an operation are granted, in the order it asks for them. -/
structure Grants where
  first : Memory
  second : Memory
  buffer : Bool
  records : Bool

/-- All memory is granted, for the command buffer where `buffer` says so. -/
def Grants.granted (buffer : Bool) : Grants := ⟨⟨true, true, true⟩, ⟨true, true, true⟩, buffer, true⟩

/-- `WireId`. -/
structure WireHandle where
  value : JavaInt
  generation : JavaInt
  deriving DecidableEq

namespace ElectricalWorld

abbrev WorldCall (F α : Type) := Call (ElectricalWorld F) WorldException α

def onWires {α : Type} (call : WorldIdAllocator.Java α) : WorldCall F α :=
  Call.zoom ElectricalWorld.wireIds (fun self wireIds => { self with wireIds }) .java call

def onDevices {α : Type} (call : WorldIdAllocator.Java α) : WorldCall F α :=
  Call.zoom ElectricalWorld.deviceIds (fun self deviceIds => { self with deviceIds }) .java call

def onBuffer {α : Type} (call : WorldCommandBuffer.Java α) : WorldCall F α :=
  Call.zoom ElectricalWorld.commandBuffer (fun self commandBuffer => { self with commandBuffer }) .java call

def requireUsable : WorldCall F Unit := do
  let self ← Call.get
  Call.rejectIf (self.poisoned = true) (.java .illegalState)

/-- `try`, and a `catch` that rolls back and throws on; a rollback that throws poisons the world. -/
def orRollBack (call rollback : WorldCall F Unit) : WorldCall F Unit := fun self =>
  match call self with
  | .ok value after => .ok value after
  | .err failure after =>
    match rollback after with
    | .ok _ last => .err failure last
    | .err _ last => .err failure { last with poisoned := true }
    | .panic => .panic
  | .panic => .panic

/-- `try` and `finally`. -/
def andFinally (call last : WorldCall F Unit) : WorldCall F Unit := fun self =>
  match call self with
  | .ok _ after => last after
  | .err failure after =>
    match last after with
    | .ok _ done => .err failure done
    | .err thrown done => .err thrown done
    | .panic => .panic
  | .panic => .panic

/-- `try`, and a `catch` that poisons the world. -/
def orPoison (call : WorldCall F Unit) : WorldCall F Unit := fun self =>
  match call self with
  | .err _ after => .err (.java .illegalState) { after with poisoned := true }
  | outcome => outcome

/-! ### Editing -/

def addWire (grants : Grants) : WorldCall F JavaInt := do
  requireUsable
  let id ← onWires (WorldIdAllocator.reserve grants.first)
  let id := WorldIdAllocator.handleOf id
  let generation ← onWires (WorldIdAllocator.generation id)
  orRollBack (onBuffer (WorldCommandBuffer.addWire grants.buffer id))
    (onWires (WorldIdAllocator.cancelPendingAdd grants.second id generation))
  pure id

def addDevice (grants : Grants) (definitionId : JavaInt) : WorldCall F JavaInt := do
  requireUsable
  Call.rejectIf (definitionId = 0) (.java (.illegalArgument "Definition ID"))
  let id ← onDevices (WorldIdAllocator.reserve grants.first)
  let id := WorldIdAllocator.handleOf id
  let generation ← onDevices (WorldIdAllocator.generation id)
  orRollBack (onBuffer (WorldCommandBuffer.addDevice grants.buffer id definitionId))
    (onDevices (WorldIdAllocator.cancelPendingAdd grants.second id generation))
  pure id

def requireWire (id : WireHandle) : WorldCall F Unit := do
  requireUsable
  onWires (WorldIdAllocator.requireUsable id.value id.generation)

def wireGeneration (wireId : JavaInt) : WorldCall F JavaInt := do
  requireUsable
  onWires (WorldIdAllocator.generation wireId)

def deviceGeneration (deviceId : JavaInt) : WorldCall F JavaInt := do
  requireUsable
  onDevices (WorldIdAllocator.generation deviceId)

def removeWire (grants : Grants) (wireId : WireHandle) : WorldCall F Unit := do
  requireUsable
  onWires (WorldIdAllocator.remove grants.first wireId.value wireId.generation)
  orRollBack (onBuffer (WorldCommandBuffer.removeWire grants.buffer wireId.value))
    (onWires (WorldIdAllocator.cancelPendingRemove wireId.value wireId.generation))

def removeDevice (grants : Grants) (deviceId generation : JavaInt) : WorldCall F Unit := do
  requireUsable
  onDevices (WorldIdAllocator.remove grants.first deviceId generation)
  orRollBack (onBuffer (WorldCommandBuffer.removeDevice grants.buffer deviceId))
    (onDevices (WorldIdAllocator.cancelPendingRemove deviceId generation))

def connectWires (grants : Grants) (wireAId wireBId : WireHandle) : WorldCall F Unit := do
  requireUsable
  onWires (WorldIdAllocator.requireUsable wireAId.value wireAId.generation)
  onWires (WorldIdAllocator.requireUsable wireBId.value wireBId.generation)
  Call.rejectIf (wireAId = wireBId) (.java (.illegalArgument "wire"))
  onBuffer (WorldCommandBuffer.connectWires grants.buffer wireAId.value wireBId.value)

def disconnectWires (grants : Grants) (wireAId wireBId : WireHandle) : WorldCall F Unit := do
  requireUsable
  onWires (WorldIdAllocator.requireUsable wireAId.value wireAId.generation)
  onWires (WorldIdAllocator.requireUsable wireBId.value wireBId.generation)
  Call.rejectIf (wireAId = wireBId) (.java (.illegalArgument "wire"))
  onBuffer (WorldCommandBuffer.disconnectWires grants.buffer wireAId.value wireBId.value)

def attachTerminal (grants : Grants) (wireId : WireHandle) (deviceId deviceGeneration terminalId : JavaInt) :
    WorldCall F Unit := do
  requireUsable
  onWires (WorldIdAllocator.requireUsable wireId.value wireId.generation)
  onDevices (WorldIdAllocator.requireUsable deviceId deviceGeneration)
  onBuffer (WorldCommandBuffer.attachTerminal grants.buffer wireId.value deviceId terminalId)

def detachTerminal (grants : Grants) (wireId : WireHandle) (deviceId deviceGeneration terminalId : JavaInt) :
    WorldCall F Unit := do
  requireUsable
  onWires (WorldIdAllocator.requireUsable wireId.value wireId.generation)
  onDevices (WorldIdAllocator.requireUsable deviceId deviceGeneration)
  onBuffer (WorldCommandBuffer.detachTerminal grants.buffer wireId.value deviceId terminalId)

def setDeviceParameter (grants : Grants) (deviceId deviceGeneration parameterId : JavaInt) (value : JavaDouble) :
    WorldCall F Unit := do
  requireUsable
  onDevices (WorldIdAllocator.requireUsable deviceId deviceGeneration)
  onBuffer (WorldCommandBuffer.setDeviceParameter grants.buffer deviceId parameterId value)

/-! ### The engine -/

section Engine

variable [F64 F] (definitions : DefinitionRegistry F) (fromBits : BitVec 64 → F)

/-- `NativeBindings.applyCommands`; a code other than zero poisons the world. -/
def nativeApply (input : List Byte) : WorldCall F Unit := fun self =>
  match WorldCommands.applyWorldCommandBuffer definitions fromBits true input self.world with
  | .ok _ world => .ok () { self with world }
  | .err error world => .err (.commandsFailed error) { self with world, poisoned := true }
  | .panic => .err .commandsPanicked { self with poisoned := true }

def applyCommands (grants : Grants) : WorldCall F Unit := do
  requireUsable
  let self ← Call.get
  if self.commandBuffer.commandCount = 0 then pure ()
  else do
    onWires (WorldIdAllocator.prepareCommitBatch grants.first)
    onDevices (WorldIdAllocator.prepareCommitBatch grants.second)
    let input ← onBuffer WorldCommandBuffer.encodedSegment
    let inputLength ← onBuffer WorldCommandBuffer.byteSize
    andFinally
      (do
        nativeApply definitions fromBits (input.take inputLength)
        orPoison do
          onWires WorldIdAllocator.commitBatch
          onDevices WorldIdAllocator.commitBatch)
      (onBuffer WorldCommandBuffer.clear)

/-- `NativeBindings.subscribeObserver`. -/
def nativeSubscribe (deviceId observerId : JavaInt) : WorldCall F SubscriptionId := fun self =>
  match nonZeroId? deviceId.toNat with
  | none => .err .invalidDeviceId self
  | some device =>
    match Stores.subscribeObserver definitions device ⟨observerId.toNat, observerId.isLt⟩ self.world with
    | .ok id world => .ok id { self with world }
    | .err error world => .err (.subscriptionFailed error) { self with world }
    | .panic => .err .subscriptionPanicked { self with poisoned := true }

def subscribeObserver (grants : Grants) (deviceId deviceGeneration observerId : JavaInt) :
    WorldCall F SubscriptionId := do
  requireUsable
  onDevices (WorldIdAllocator.requireUsable deviceId deviceGeneration)
  Call.rejectIf (observerId.toInt < 0) (.java (.illegalArgument "Observer ID"))
  applyCommands definitions fromBits grants
  requireUsable
  nativeSubscribe definitions deviceId observerId

omit [F64 F] in
/-- `NativeBindings.unsubscribe`. -/
def nativeUnsubscribe (subscriptionId : JavaInt) : WorldCall F Unit := fun self =>
  match nonZeroId? subscriptionId.toNat with
  | none => .err .invalidSubscriptionId self
  | some subscription =>
    match Stores.unsubscribe subscription self.world with
    | .ok _ world => .ok () { self with world }
    | .err error world => .err (.subscriptionFailed error) { self with world }
    | .panic => .err .subscriptionPanicked { self with poisoned := true }

def unsubscribe (grants : Grants) (subscriptionId : JavaInt) : WorldCall F Unit := do
  requireUsable
  Call.rejectIf (subscriptionId = 0) (.java (.illegalArgument "Subscription ID"))
  applyCommands definitions fromBits grants
  requireUsable
  nativeUnsubscribe subscriptionId

/-! ### Ticking -/

/-- The loop of `SubscriptionRecordBuffer.growCapacity`. -/
def growRecords (required : Nat) : Nat → Nat → Nat
  | 0, _ => required
  | fuel + 1, capacity =>
    if capacity < required then
      let next := capacity + capacity / 2
      if maxId < next ∨ next ≤ capacity then required else growRecords required fuel next
    else capacity

/-- `subscriptionBuffer.ensureCapacity`. -/
def ensureRecords (grants : Grants) (requiredCapacity : Nat) : WorldCall F Unit := do
  let self ← Call.get
  if requiredCapacity ≤ self.recordCapacity then pure ()
  else do
    Call.rejectIf (grants.records = false) (.java .outOfMemory)
    Call.set { self with recordCapacity := growRecords requiredCapacity 64 (max self.recordCapacity 8) }

omit [F64 F] in
/-- What changed for the subscriptions of a tick, in their order. -/
def recordsOf (published : ObserverSubscription → Option PublishedObservation) (world : Stores F) :
    List SubscriptionRecord :=
  world.subscriptions.subscriptions.filterMap fun subscription =>
    (published subscription).map fun observation => ⟨subscription.id, observation⟩

omit [F64 F] in
/-- `NativeBindings.tickWorld` with enough capacity, and the records it leaves in the buffer. -/
def nativeTick (answers : TickAnswers F) : WorldCall F Nat := fun self =>
  match Stores.tick answers self.world with
  | .ok _ world =>
    let records := recordsOf answers.published self.world
    .ok records.length { self with world, records }
  | .err failure world => .err (.tickFailed failure) { self with world, poisoned := true }
  | .panic => .err .tickPanicked { self with poisoned := true }

omit [F64 F] in
def readSuccessfulTickResult (recordCount requiredCapacity : Nat) : WorldCall F Nat := fun self =>
  if maxId < recordCount ∨ maxId < requiredCapacity ∨ requiredCapacity < recordCount ∨
      self.recordCapacity < requiredCapacity then
    .err (.java .illegalState) { self with poisoned := true }
  else .ok recordCount self

/-- With the number of records. The engine asks for room for all subscriptions before it ticks. -/
def tick (grants : Grants) (answers : TickAnswers F) : WorldCall F Nat := do
  applyCommands definitions fromBits grants
  requireUsable
  let self ← Call.get
  let required := self.world.subscriptions.subscriptions.length
  if self.recordCapacity < required then do
    Call.rejectIf (maxId < required) (.java .illegalState)
    ensureRecords grants required
    let recordCount ← nativeTick answers
    readSuccessfulTickResult recordCount required
  else do
    let recordCount ← nativeTick answers
    readSuccessfulTickResult recordCount required

end Engine

end ElectricalWorld

end Hynergy
