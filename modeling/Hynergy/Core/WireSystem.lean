import Hynergy.Client.WireHandles

/-!
# Wire blocks

A block of wire has a component with the id of its wire, which is saved with the block, and a handle of the
wire, which is not. `WireSystem` creates and resolves wires in the electrical system that the resource of the
world holds; the system lives in memory only.
-/

namespace Hynergy.Core

open Lib Relation

variable {F : Type}

/-- `Wire`, with the number of the system it belongs to. -/
structure Wire where
  system : Nat
  wireId : WireHandle
  deriving DecidableEq

structure WireComponent where
  configId : String
  wireId : Option WireHandle := none
  wire : Option Wire := none

/-- `cloneSerializable`, and what the codec writes and reads back. -/
def WireComponent.cloneSerializable (self : WireComponent) : WireComponent :=
  { configId := self.configId, wireId := self.wireId }

/-- `ElectricalSystemResource`, with the number of the system it holds or will create. -/
structure ElectricalSystemResource (F : Type) where
  number : Nat := 0
  system : Option (ElectricalWorld F) := none

namespace ElectricalSystemResource

abbrev ResourceCall (F α : Type) := Call (ElectricalSystemResource F) WorldException α

/-- `getOrCreate`; a system starts with a new command buffer. -/
def getOrCreate (commandBuffer : WorldCommandBuffer) : ResourceCall F Nat := do
  let self ← Call.get
  match self.system with
  | some _ => pure self.number
  | none => do
    Call.set { self with system := some { commandBuffer } }
    pure self.number

/-- A call on the world of the system. -/
def onWorld {α : Type} (call : ElectricalWorld.WorldCall F α) : ResourceCall F α := fun self =>
  match self.system with
  | none => .panic
  | some world =>
    match call world with
    | .ok value after => .ok value { self with system := some after }
    | .err error after => .err error { self with system := some after }
    | .panic => .panic

def createWire (grants : Grants) : ResourceCall F Wire := do
  let id ← onWorld (ElectricalWorld.addWire grants)
  let generation ← onWorld (ElectricalWorld.wireGeneration id)
  -- the constructor of `WireId`
  Call.rejectIf (id.toInt ≤ 0 ∨ generation = 0) (.java (.illegalArgument "Wire ID"))
  let self ← Call.get
  pure ⟨self.number, ⟨id, generation⟩⟩

def resolveWire (id : WireHandle) : ResourceCall F Wire := do
  onWorld (ElectricalWorld.requireWire id)
  let self ← Call.get
  pure ⟨self.number, id⟩

/-- `requireOwned`. -/
def requireOwned (wire : Wire) : ResourceCall F Unit := do
  onWorld ElectricalWorld.requireUsable
  let self ← Call.get
  Call.rejectIf (wire.system ≠ self.number) (.java (.illegalArgument "wire"))

def connect (grants : Grants) (first second : Wire) : ResourceCall F Unit := do
  requireOwned first
  requireOwned second
  onWorld (ElectricalWorld.connectWires grants first.wireId second.wireId)

def destroy (grants : Grants) (wire : Wire) : ResourceCall F Unit := do
  requireOwned wire
  onWorld (ElectricalWorld.removeWire grants wire.wireId)

end ElectricalSystemResource

namespace WireSystem

open ElectricalSystemResource

/-- A handler of the system, on the resource and the component of a block. -/
abbrev Handler (F α : Type) := Call (ElectricalSystemResource F × WireComponent) WorldException α

def onResource {α : Type} (call : ResourceCall F α) : Handler F α :=
  Call.zoom Prod.fst (fun self resource => (resource, self.2)) id call

def setComponent (component : WireComponent) : Handler F Unit := Call.modify fun self => (self.1, component)

/-- The consumer of `connectNewWire`, over the components that the port discovery finds: those whose wire
is loaded are connected once. -/
def connectFound (grants : Grants) (sourceWire : Wire) : List WireComponent → List WireHandle → Handler F Unit
  | [], _ => pure ()
  | target :: found, connectedWires =>
    match target.wire with
    | none => connectFound grants sourceWire found connectedWires
    | some targetWire =>
      if targetWire.wireId ∈ connectedWires then connectFound grants sourceWire found connectedWires
      else do
        onResource (connect grants sourceWire targetWire)
        connectFound grants sourceWire found (targetWire.wireId :: connectedWires)

def onEntityAdded (grants connectGrants : Grants) (commandBuffer : WorldCommandBuffer) (found : List WireComponent) :
    Handler F Unit := do
  let self ← Call.get
  let component := self.2
  Call.rejectIf (component.wire.isSome = true) (.java .illegalState)
  let _system ← onResource (getOrCreate commandBuffer)
  match component.wireId with
  | some persistedId => do
    let wire ← onResource (resolveWire persistedId)
    setComponent { component with wire := some wire }
  | none => do
    let wire ← onResource (createWire grants)
    setComponent { component with wireId := some wire.wireId, wire := some wire }
    connectFound connectGrants wire found [wire.wireId]

/-- `onEntityRemove` where the block is destroyed. -/
def onEntityRemove (grants : Grants) (commandBuffer : WorldCommandBuffer) : Handler F Unit := do
  let self ← Call.get
  let component := self.2
  let wire ← match component.wire, component.wireId with
    | some wire, _ => pure (some wire)
    | none, none => pure none
    | none, some wireId => do
      let _system ← onResource (getOrCreate commandBuffer)
      let wire ← onResource (resolveWire wireId)
      pure (some wire)
  match wire with
  | some wire => onResource (destroy grants wire)
  | none => pure ()
  setComponent { component with wire := none, wireId := none }

/-- `onEntityRemove` where the section is unloaded. -/
def onEntityUnload (component : WireComponent) : WireComponent := { component with wire := none }

end WireSystem

/-! ### The world of the blocks -/

/-- The blocks of the loaded sections, what is saved of them, and beside it which system gave a block its
wire. -/
structure WireBlocks (F Position Section : Type) where
  definitions : DefinitionRegistry F
  resource : ElectricalSystemResource F := {}
  loaded : Section → Prop
  blocks : Position → Option WireComponent := fun _ => none
  stored : Position → Option WireComponent := fun _ => none
  issued : Position → Nat := fun _ => 0

namespace WireBlocks

open WireSystem

variable {Position Section : Type} [DecidableEq Position] [DecidableEq Section]

/-- The component of a block is written. -/
def put (self : WireBlocks F Position Section) (position : Position) (resource : ElectricalSystemResource F)
    (component : Option WireComponent) : WireBlocks F Position Section :=
  { self with resource, blocks := Function.update self.blocks position component }

/-- What is written of a section. -/
def saved (self : WireBlocks F Position Section) (sectionOf : Position → Section) (s : Section) :
    Position → Option WireComponent :=
  fun position => if sectionOf position = s then (self.blocks position).map WireComponent.cloneSerializable
    else self.stored position

/-- The command buffer of a system that is created. -/
def NewBuffer (commandBuffer : WorldCommandBuffer) : Prop :=
  ∃ granted, WorldCommandBuffer.new (BitVec.ofNat 32 WorldCommandBuffer.defaultCapacity) granted = .ok () commandBuffer

/-- The saved blocks of a section are restored one after the other; a handler that throws leaves the block
with the component it reached. -/
inductive Restores : WireBlocks F Position Section → List Position → WireBlocks F Position Section → Prop
  | nil {self : WireBlocks F Position Section} : Restores self [] self
  | cons {self next : WireBlocks F Position Section} {position : Position} {rest : List Position}
      {component left : WireComponent} {resource : ElectricalSystemResource F} {grants connectGrants : Grants}
      {commandBuffer : WorldCommandBuffer} {found : List WireComponent} (known : self.stored position = some component)
      (buffer : NewBuffer commandBuffer)
      (added : (onEntityAdded grants connectGrants commandBuffer found (self.resource, component)).Leaves (resource, left))
      (restores : Restores (self.put position resource (some left)) rest next) : Restores self (position :: rest) next

end WireBlocks

/-- What happens to the blocks. -/
inductive BlockEvent (F Position Section : Type)
  | place (position : Position)
  | destroy (position : Position)
  | save (s : Section)
  | unload (s : Section)
  | load (s : Section)
  | restart
  | register
  /-- Another operation on the system: a tick, or one on devices and on wires that are no block's. -/
  | operate (operation : ElectricalWorld.Operation F)

namespace WireBlocks

open WireSystem

variable {Position Section : Type} [DecidableEq Position] [DecidableEq Section]

variable [F64 F] (sectionOf : Position → Section) (fromBits : BitVec 64 → F)

inductive Step : WireBlocks F Position Section → BlockEvent F Position Section → WireBlocks F Position Section → Prop
  /-- A block is placed beside blocks that the port discovery finds, and its handler returns. -/
  | place {self : WireBlocks F Position Section} {position : Position} {configId : String} {grants connectGrants : Grants}
      {commandBuffer : WorldCommandBuffer} {neighbours : List Position} {resource : ElectricalSystemResource F}
      {component : WireComponent} (loaded : self.loaded (sectionOf position)) (free : self.blocks position = none)
      (buffer : NewBuffer commandBuffer)
      (added : onEntityAdded grants connectGrants commandBuffer (neighbours.filterMap self.blocks)
        (self.resource, { configId }) = .ok () (resource, component)) :
      Step self (.place position) { self.put position resource (some component) with
        issued := Function.update self.issued position resource.number }
  /-- A block is destroyed, and its handler returns. -/
  | destroy {self : WireBlocks F Position Section} {position : Position} {component left : WireComponent} {grants : Grants}
      {commandBuffer : WorldCommandBuffer} {resource : ElectricalSystemResource F}
      (there : self.blocks position = some component) (buffer : NewBuffer commandBuffer)
      (removed : onEntityRemove grants commandBuffer (self.resource, component) = .ok () (resource, left)) :
      Step self (.destroy position) (self.put position resource none)
  | save {self : WireBlocks F Position Section} (s : Section) (loaded : self.loaded s) :
      Step self (.save s) { self with stored := self.saved sectionOf s }
  /-- A section is written when it is unloaded. -/
  | unload {self : WireBlocks F Position Section} (s : Section) (loaded : self.loaded s) :
      Step self (.unload s) { self with
        loaded := fun other => other ≠ s ∧ self.loaded other
        blocks := fun position => if sectionOf position = s then none else self.blocks position
        stored := ({ self with blocks := fun position => (self.blocks position).map onEntityUnload }).saved sectionOf s }
  | load {self next : WireBlocks F Position Section} (s : Section) {order : List Position} (unloaded : ¬ self.loaded s)
      (all : ∀ position, position ∈ order ↔ sectionOf position = s ∧ (self.stored position).isSome = true)
      (once : order.Nodup)
      (restores : Restores { self with loaded := fun other => other = s ∨ self.loaded other } order next) :
      Step self (.load s) next
  /-- What is in memory is dropped, the electrical system with it. -/
  | restart {self : WireBlocks F Position Section} :
      Step self .restart { self with
        resource := { number := self.resource.number + 1 }, loaded := fun _ => False, blocks := fun _ => none }
  | register {self : WireBlocks F Position Section} {definitions : DefinitionRegistry F}
      (extends' : definitions.Extends self.definitions) (reached : definitions.Reached) :
      Step self .register { self with definitions }
  | operate {self : WireBlocks F Position Section} {world after : ElectricalWorld F}
      (operation : ElectricalWorld.Operation F) (current : self.resource.system = some world)
      (run : operation.run self.definitions fromBits world = .ok () after ∨ ∃ error,
        operation.run self.definitions fromBits world = .err error after ∧ error.isEngineFailure = false)
      (spares : ∀ grants handle, operation = .removeWire grants handle → ∀ position component,
        (self.blocks position = some component ∨ self.stored position = some component) →
          component.wireId ≠ some handle) :
      Step self (.operate operation) { self with resource := { self.resource with system := some after } }

/-- A new world: nothing is loaded and nothing saved. -/
def new (definitions : DefinitionRegistry F) : WireBlocks F Position Section := { definitions, loaded := fun _ => False }

/-- The electrical system accepts the handle. -/
def Accepts (self : WireBlocks F Position Section) (handle : WireHandle) : Prop :=
  ∃ world, self.resource.system = some world ∧ ElectricalWorld.requireWire handle world = .ok () world

/-- Every loaded wire block holds a wire that the system accepts, and no two the same id. -/
structure HandlesValid (blocks : WireBlocks F Position Section) : Prop where
  usable : ∀ position component, blocks.blocks position = some component →
    ∃ wire, component.wire = some wire ∧ component.wireId = some wire.wireId ∧
      wire.system = blocks.resource.number ∧ blocks.Accepts wire.wireId
  unshared : ∀ position position' component component' wireId, blocks.blocks position = some component →
    blocks.blocks position' = some component' → component.wireId = some wireId → component'.wireId = some wireId →
    position = position'

end WireBlocks

end Hynergy.Core
