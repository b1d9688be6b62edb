import Hynergy.Client.LiveSubscriptions

/-!
# An electrical system

`ElectricalSystem` keeps the subscription objects of a world in a registry and publishes the records of a
tick to their listeners. A listener may do anything with the system but close it: between two records of a
publication any operations take place. A handle of another system is refused before anything happens, and
is left out.
-/

namespace Hynergy

open Relation

/-- `ObservationSubscription`: whether its system is still set, and whether its listener is. -/
structure ObservationSubscription where
  nativeId : SubscriptionId
  deviceId : JavaInt
  active : Bool := true
  listener : Bool := true
  deriving DecidableEq

/-- `ObservationSubscriptionRegistry`, with the subscription objects; a reference is a position among
them. -/
structure ObservationSubscriptionRegistry where
  objects : List ObservationSubscription := []
  subscriptions : List (SubscriptionId × Nat) := []
  deferredRemovals : List SubscriptionId := []
  publishing : Bool := false

namespace ObservationSubscriptionRegistry

abbrev RegistryCall (α : Type) := Call ObservationSubscriptionRegistry JavaException α

def get (self : ObservationSubscriptionRegistry) (subscriptionId : SubscriptionId) : Option Nat :=
  self.subscriptions.lookup subscriptionId

/-- The object of a reference. -/
def dereference (subscription : Nat) : RegistryCall ObservationSubscription := do
  let self ← Call.get
  Call.expect self.objects[subscription]?

def deactivate (subscription : Nat) : RegistryCall Unit :=
  Call.modify fun self => { self with objects := self.objects.modify subscription ({ · with active := false }) }

def releaseListener (subscription : Nat) : RegistryCall Unit :=
  Call.modify fun self => { self with objects := self.objects.modify subscription ({ · with listener := false }) }

/-- `subscriptions.remove(subscriptionId)`. -/
def unmap (subscriptionId : SubscriptionId) : RegistryCall Unit :=
  Call.modify fun self => { self with subscriptions := self.subscriptions.filter (·.1 ≠ subscriptionId) }

/-- The constructor of `ObservationSubscription`; a native id is not zero. -/
def construct (nativeId : SubscriptionId) (deviceId : JavaInt) : RegistryCall Nat := do
  Call.rejectIf (deviceId.toInt ≤ 0) (.illegalArgument "Device ID")
  let self ← Call.get
  Call.set { self with objects := self.objects ++ [{ nativeId, deviceId }] }
  pure self.objects.length

def add (subscription : Nat) : RegistryCall Unit := do
  let object ← dereference subscription
  Call.rejectIf (object.active = false) (.illegalArgument "subscription")
  let self ← Call.get
  Call.rejectIf ((self.get object.nativeId).isSome = true) .illegalState
  Call.set { self with subscriptions := self.subscriptions ++ [(object.nativeId, subscription)] }

/-- The end of `remove` and of a round of `invalidateDevice`: the removal waits for the end of a
publication. -/
def retire (subscriptionId : SubscriptionId) (subscription : Nat) : RegistryCall Unit := do
  deactivate subscription
  let self ← Call.get
  if self.publishing then
    Call.set { self with deferredRemovals := self.deferredRemovals ++ [subscriptionId] }
  else do
    unmap subscriptionId
    releaseListener subscription

def remove (subscription : Nat) : RegistryCall Unit := do
  let object ← dereference subscription
  let self ← Call.get
  Call.rejectIf (self.get object.nativeId ≠ some subscription) .illegalState
  Call.rejectIf (object.active = false) .illegalState
  retire object.nativeId subscription

/-- The loop of `invalidateDevice`. -/
def invalidate (deviceId : JavaInt) : List (SubscriptionId × Nat) → RegistryCall Unit
  | [] => pure ()
  | (subscriptionId, subscription) :: entries => do
    let object ← dereference subscription
    if object.deviceId ≠ deviceId ∨ object.active = false then invalidate deviceId entries
    else do
      retire subscriptionId subscription
      invalidate deviceId entries

def invalidateDevice (deviceId : JavaInt) : RegistryCall Unit := do
  let self ← Call.get
  invalidate deviceId self.subscriptions

def beginPublication : RegistryCall Unit := do
  let self ← Call.get
  Call.rejectIf (self.publishing = true) .illegalState
  Call.rejectIf (self.deferredRemovals ≠ []) .illegalState
  Call.set { self with publishing := true }

/-- The loop of `endPublication`. -/
def removeDeferred : List SubscriptionId → RegistryCall Unit
  | [] => pure ()
  | subscriptionId :: deferred => do
    let self ← Call.get
    let subscription ← Call.okOr (self.get subscriptionId) .illegalState
    let object ← dereference subscription
    Call.rejectIf (object.active = true) .illegalState
    unmap subscriptionId
    releaseListener subscription
    removeDeferred deferred

/-- Its `finally`. -/
def endedPublication (self : ObservationSubscriptionRegistry) : ObservationSubscriptionRegistry :=
  { self with deferredRemovals := [], publishing := false }

def endPublication : RegistryCall Unit := fun self =>
  if self.publishing = false then .err .illegalState self
  else
    match removeDeferred self.deferredRemovals self with
    | .ok _ after => .ok () after.endedPublication
    | .err failure after => .err failure after.endedPublication
    | .panic => .panic

end ObservationSubscriptionRegistry

/-- The system; it is never closed. -/
structure ElectricalSystem (F : Type) where
  world : ElectricalWorld F
  subscriptions : ObservationSubscriptionRegistry := {}
  poisoned : Bool := false
  ticking : Bool := false

namespace ElectricalSystem

open ObservationSubscriptionRegistry (RegistryCall)

variable {F : Type}

abbrev SystemCall (F α : Type) := Call (ElectricalSystem F) WorldException α

def onWorld {α : Type} (call : ElectricalWorld.WorldCall F α) : SystemCall F α :=
  Call.zoom ElectricalSystem.world (fun self world => { self with world }) id call

def onSubscriptions {α : Type} (call : RegistryCall α) : SystemCall F α :=
  Call.zoom ElectricalSystem.subscriptions (fun self subscriptions => { self with subscriptions }) .java call

def requireUsable : SystemCall F Unit := do
  let self ← Call.get
  Call.rejectIf (self.poisoned = true) (.java .illegalState)

/-- `try`, and a `catch` that poisons the system for some failures and throws on. -/
def orPoison (poisons : WorldException → Bool) (call : SystemCall F Unit) : SystemCall F Unit := fun self =>
  match call self with
  | .err failure after => .err failure { after with poisoned := poisons failure || after.poisoned }
  | outcome => outcome

/-! ### Editing -/

def createWire (grants : Grants) : SystemCall F WireHandle := do
  requireUsable
  let id ← onWorld (ElectricalWorld.addWire grants)
  let generation ← onWorld (ElectricalWorld.wireGeneration id)
  -- the constructor of `WireId`
  Call.rejectIf (id.toInt ≤ 0 ∨ generation = 0) (.java (.illegalArgument "Wire ID"))
  pure ⟨id, generation⟩

def resolveWire (id : WireHandle) : SystemCall F WireHandle := do
  requireUsable
  onWorld (ElectricalWorld.requireWire id)
  pure id

def connect (grants : Grants) (first second : WireHandle) : SystemCall F Unit := do
  requireUsable
  onWorld (ElectricalWorld.connectWires grants first second)

def disconnect (grants : Grants) (first second : WireHandle) : SystemCall F Unit := do
  requireUsable
  onWorld (ElectricalWorld.disconnectWires grants first second)

/-- `remove`, of a wire. -/
def removeWire (grants : Grants) (wire : WireHandle) : SystemCall F Unit := do
  requireUsable
  onWorld (ElectricalWorld.removeWire grants wire)

/-- With the id of the definition of the type; the id and the generation that the device is bound to. -/
def create (grants : Grants) (definitionId : JavaInt) : SystemCall F (JavaInt × JavaInt) := do
  requireUsable
  let id ← onWorld (ElectricalWorld.addDevice grants definitionId)
  let generation ← onWorld (ElectricalWorld.deviceGeneration id)
  pure (id, generation)

def setParameter (grants : Grants) (deviceId generation parameterId : JavaInt) (value : JavaDouble) :
    SystemCall F Unit := do
  requireUsable
  onWorld (ElectricalWorld.setDeviceParameter grants deviceId generation parameterId value)

def attachTerminal (grants : Grants) (deviceId generation terminalId : JavaInt) (wire : WireHandle) :
    SystemCall F Unit := do
  requireUsable
  onWorld (ElectricalWorld.attachTerminal grants wire deviceId generation terminalId)

def detachTerminal (grants : Grants) (deviceId generation terminalId : JavaInt) (wire : WireHandle) :
    SystemCall F Unit := do
  requireUsable
  onWorld (ElectricalWorld.detachTerminal grants wire deviceId generation terminalId)

/-- `remove`, of a device. -/
def removeDevice (grants : Grants) (deviceId generation : JavaInt) : SystemCall F Unit := do
  requireUsable
  onWorld (ElectricalWorld.removeDevice grants deviceId generation)
  orPoison (fun _ => true) (onSubscriptions (ObservationSubscriptionRegistry.invalidateDevice deviceId))

/-! ### Subscribing -/

section Engine

variable [F64 F] (definitions : DefinitionRegistry F) (fromBits : BitVec 64 → F)

/-- `try`, and a `catch` that takes the native subscription back. -/
def orUnsubscribe {α : Type} (grants : Grants) (subscriptionId : SubscriptionId) (call : SystemCall F α) :
    SystemCall F α := fun self =>
  match call self with
  | .err failure after =>
    match onWorld (ElectricalWorld.unsubscribe definitions fromBits grants (BitVec.ofNat 32 subscriptionId.get)) after with
    | .ok _ last => .err failure last
    | .err _ last => .err failure { last with poisoned := true }
    | .panic => .panic
  | outcome => outcome

def subscribe (grants rollbackGrants : Grants) (deviceId generation observerId : JavaInt) : SystemCall F Nat := do
  requireUsable
  let subscriptionId ← onWorld (ElectricalWorld.subscribeObserver definitions fromBits grants deviceId generation observerId)
  orUnsubscribe definitions fromBits rollbackGrants subscriptionId do
    let subscription ← onSubscriptions (ObservationSubscriptionRegistry.construct subscriptionId deviceId)
    onSubscriptions (ObservationSubscriptionRegistry.add subscription)
    pure subscription

/-- `unsubscribe` of the system. -/
def unsubscribe (grants : Grants) (subscription : Nat) : SystemCall F Unit := do
  requireUsable
  let object ← onSubscriptions (ObservationSubscriptionRegistry.dereference subscription)
  Call.rejectIf (object.active = false) (.java (.illegalArgument "subscription"))
  orPoison WorldException.isOwnershipConsistencyFailure
    (onWorld (ElectricalWorld.unsubscribe definitions fromBits grants (BitVec.ofNat 32 object.nativeId.get)))
  orPoison (fun _ => true) (onSubscriptions (ObservationSubscriptionRegistry.remove subscription))

/-- `unsubscribe` of the subscription. -/
def unsubscribeActive (grants : Grants) (subscription : Nat) : SystemCall F Unit := do
  let object ← onSubscriptions (ObservationSubscriptionRegistry.dereference subscription)
  if object.active then unsubscribe definitions fromBits grants subscription else pure ()

/-- What a program, or a listener, may do with the system. -/
inductive SystemOperation
  | createWire (grants : Grants)
  | resolveWire (id : WireHandle)
  | connect (grants : Grants) (first second : WireHandle)
  | disconnect (grants : Grants) (first second : WireHandle)
  | removeWire (grants : Grants) (wire : WireHandle)
  | create (grants : Grants) (definitionId : JavaInt)
  | setParameter (grants : Grants) (deviceId generation parameterId : JavaInt) (value : JavaDouble)
  | attachTerminal (grants : Grants) (deviceId generation terminalId : JavaInt) (wire : WireHandle)
  | detachTerminal (grants : Grants) (deviceId generation terminalId : JavaInt) (wire : WireHandle)
  | removeDevice (grants : Grants) (deviceId generation : JavaInt)
  | subscribe (grants rollbackGrants : Grants) (deviceId generation observerId : JavaInt)
  | unsubscribe (grants : Grants) (subscription : Nat)

/-- The call, its value dropped. -/
def SystemOperation.run : SystemOperation → SystemCall F Unit
  | .createWire grants => do
    let _wire ← ElectricalSystem.createWire grants
  | .resolveWire id => do
    let _wire ← ElectricalSystem.resolveWire id
  | .connect grants first second => ElectricalSystem.connect grants first second
  | .disconnect grants first second => ElectricalSystem.disconnect grants first second
  | .removeWire grants wire => ElectricalSystem.removeWire grants wire
  | .create grants definitionId => do
    let _device ← ElectricalSystem.create grants definitionId
  | .setParameter grants deviceId generation parameterId value =>
    ElectricalSystem.setParameter grants deviceId generation parameterId value
  | .attachTerminal grants deviceId generation terminalId wire =>
    ElectricalSystem.attachTerminal grants deviceId generation terminalId wire
  | .detachTerminal grants deviceId generation terminalId wire =>
    ElectricalSystem.detachTerminal grants deviceId generation terminalId wire
  | .removeDevice grants deviceId generation => ElectricalSystem.removeDevice grants deviceId generation
  | .subscribe grants rollbackGrants deviceId generation observerId => do
    let _subscription ← ElectricalSystem.subscribe definitions fromBits grants rollbackGrants deviceId generation observerId
  | .unsubscribe grants subscription => unsubscribeActive definitions fromBits grants subscription

/-! ### Ticking -/

omit [F64 F] in
/-- The start of `tick`. -/
def enterTick : SystemCall F Unit := do
  requireUsable
  let self ← Call.get
  Call.rejectIf (self.ticking = true) (.java .illegalState)
  Call.set { self with ticking := true }

omit [F64 F] in
/-- The two `finally` of `tick` after a publication has begun. -/
def endTick : SystemCall F Unit := fun self =>
  match orPoison (fun _ => true) (onSubscriptions ObservationSubscriptionRegistry.endPublication) self with
  | .ok _ after => .ok () { after with ticking := false }
  | .err failure after => .err failure { after with ticking := false }
  | .panic => .panic

/-- The records of a tick that are published: how many there are, the next one, and the listeners that were
called with what. Beside the code the records and the registry at the start. -/
structure Publication where
  recordCount : Nat
  index : Nat := 0
  calls : List (Nat × PublishedObservation) := []
  records : List SubscriptionRecord
  started : ObservationSubscriptionRegistry

/-- A system in a run, with the publication under way and those that ended. -/
structure SystemState (F : Type) where
  definitions : DefinitionRegistry F
  system : ElectricalSystem F
  publication : Option Publication := none
  published : List Publication := []

/-- Where a publication reads its next record and the listener of its subscription. -/
structure Finds (system : ElectricalSystem F) (index : Nat) (record : SubscriptionRecord) (subscription : Nat) : Prop where
  read : system.world.records[index]? = some record
  registered : system.subscriptions.get record.subscriptionId = some subscription
  listens : ∃ object, system.subscriptions.objects[subscription]? = some object ∧ object.listener = true

/-- How a call ends where the engine does not fail. -/
def Succeeds {α : Type} (outcome : Outcome (ElectricalSystem F) WorldException α) (after : ElectricalSystem F) : Prop :=
  (∃ value, outcome = .ok value after) ∨ ∃ error, outcome = .err error after ∧ error.isEngineFailure = false

/-- One step of a run. A listener returns or throws without effect; what it does to the system are the
operations between two records. -/
inductive Step : SystemState F → SystemState F → Prop
  | register {state : SystemState F} {next : DefinitionRegistry F} (extends' : next.Extends state.definitions)
      (reached : next.Reached) : Step state { state with definitions := next }
  | operate {state : SystemState F} {after : ElectricalSystem F} (operation : SystemOperation)
      (run : Succeeds (operation.run state.definitions fromBits state.system) after) : Step state { state with system := after }
  /-- A tick that is refused, as in a listener. -/
  | tickRefused {state : SystemState F} {error : WorldException} {after : ElectricalSystem F}
      (refused : enterTick state.system = .err error after) : Step state { state with system := after }
  | tickThrows {state : SystemState F} {entered after : ElectricalSystem F} {error : WorldException} {grants : Grants}
      {answers : TickAnswers F} (enters : enterTick state.system = .ok () entered)
      (throws : onWorld (ElectricalWorld.tick state.definitions fromBits grants answers) entered = .err error after)
      (accepted : error.isEngineFailure = false) : Step state { state with system := { after with ticking := false } }
  | tickQuiet {state : SystemState F} {entered after : ElectricalSystem F} {grants : Grants} {answers : TickAnswers F}
      (enters : enterTick state.system = .ok () entered)
      (ticks : onWorld (ElectricalWorld.tick state.definitions fromBits grants answers) entered = .ok 0 after) :
      Step state { state with system := { after with ticking := false } }
  | tickBegins {state : SystemState F} {entered after ready : ElectricalSystem F} {recordCount : Nat} {grants : Grants}
      {answers : TickAnswers F} (enters : enterTick state.system = .ok () entered)
      (ticks : onWorld (ElectricalWorld.tick state.definitions fromBits grants answers) entered = .ok recordCount after)
      (records : recordCount ≠ 0)
      (begins : onSubscriptions ObservationSubscriptionRegistry.beginPublication after = .ok () ready) :
      Step state { state with
        system := ready
        publication := some { recordCount, records := after.world.records, started := after.subscriptions } }
  | tickUnready {state : SystemState F} {entered after unready : ElectricalSystem F} {recordCount : Nat} {grants : Grants}
      {answers : TickAnswers F} {error : WorldException} (enters : enterTick state.system = .ok () entered)
      (ticks : onWorld (ElectricalWorld.tick state.definitions fromBits grants answers) entered = .ok recordCount after)
      (records : recordCount ≠ 0)
      (refused : onSubscriptions ObservationSubscriptionRegistry.beginPublication after = .err error unready) :
      Step state { state with system := { unready with poisoned := true, ticking := false } }
  | publish {state : SystemState F} {publication : Publication} {record : SubscriptionRecord} {subscription : Nat}
      (current : state.publication = some publication) (more : publication.index < publication.recordCount)
      (finds : Finds state.system publication.index record subscription) :
      Step state { state with publication := some { publication with
        index := publication.index + 1
        calls := publication.calls ++ [(subscription, record.observation)] } }
  | publishFails {state : SystemState F} {publication : Publication} {after : ElectricalSystem F}
      (current : state.publication = some publication) (more : publication.index < publication.recordCount)
      (lost : ¬ ∃ record subscription, Finds state.system publication.index record subscription)
      (ends : (endTick { state.system with poisoned := true }).Leaves after) :
      Step state { state with
        system := after, publication := none, published := state.published ++ [publication] }
  | tickEnds {state : SystemState F} {publication : Publication} {after : ElectricalSystem F}
      (current : state.publication = some publication) (done : publication.index = publication.recordCount)
      (ends : (endTick state.system).Leaves after) :
      Step state { state with
        system := after, publication := none, published := state.published ++ [publication] }

end Engine

/-- A new system. -/
def new (definitions : DefinitionRegistry F) (commandBuffer : WorldCommandBuffer) : SystemState F :=
  { definitions, system := { world := { commandBuffer } } }

/-- The active subscription with the id. -/
def Active (system : ElectricalSystem F) (id : Nat) : Prop :=
  ∃ subscription object, (object.nativeId, subscription) ∈ system.subscriptions.subscriptions ∧
    system.subscriptions.objects[subscription]? = some object ∧ object.active = true ∧ object.nativeId.get = id

end ElectricalSystem

end Hynergy
