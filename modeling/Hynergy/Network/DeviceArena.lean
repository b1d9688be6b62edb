import Hynergy.Network.DeviceChunk

/-!
# The device arena

A directory of packed entries, the resident chunks, and for each definition a hint at a
chunk with room.
-/

namespace Hynergy

open Lib

variable {F : Type}

structure DeviceInsertResult where
  chunkIndex : Nat
  row : Nat
  createdChunk : Bool
  deriving DecidableEq

def DeviceInsertResult.location (self : DeviceInsertResult) : DeviceLocation :=
  ⟨self.chunkIndex, self.row⟩

structure PreparedDeviceInsert (F : Type) where
  device : DeviceId
  definitionId : DefinitionId
  location : DeviceLocation
  createdChunk : Bool
  newChunk : Option (DeviceChunk F)

structure DeviceChunkRelocation where
  fromChunk : Nat
  toChunk : Nat
  deriving DecidableEq

structure DeviceRemoveResult where
  removedChunk : Nat
  removedRow : Nat
  movedDevice : Option DeviceId
  chunkRelocation : Option DeviceChunkRelocation
  deriving DecidableEq

/-- A device as its readers see it. -/
structure DeviceView (F : Type) where
  definitionId : DefinitionId
  terminals : List (Option ConnectionRef)
  parameters : List (Option F)

structure DeviceArena (F : Type) where
  directory : List DeviceDirectoryEntry := []
  chunks : List (DeviceChunk F) := []
  activeChunks : List (Option Nat) := []

namespace DeviceArena

def directoryLen (self : DeviceArena F) : Nat := self.directory.length

def isAssigned (self : DeviceArena F) (device : DeviceId) : Bool :=
  self.directory[device.index]?.any fun entry => !entry.isUnassigned

def residentLocator (self : DeviceArena F) (device : DeviceId) : Option DeviceLocator :=
  self.directory[device.index]?.bind DeviceDirectoryEntry.residentLocator

/-- `resident_locator(device)?` -/
def resident (device : DeviceId) : Call (DeviceArena F) NetworkModelError DeviceLocator := do
  let self ← Call.get
  Call.okOr (self.residentLocator device) (.idNotAssigned .device device.get)

def location (self : DeviceArena F) (device : DeviceId) : Except NetworkModelError DeviceLocation :=
  match self.residentLocator device with
  | some locator => .ok (.ofLocator locator)
  | none => .error (.idNotAssigned .device device.get)

/-! ### Insertion -/

def ensureActiveSlot (self : DeviceArena F) (definition : DefinitionId) : DeviceArena F :=
  if self.activeChunks.length ≤ definition.index then
    { self with
      activeChunks := self.activeChunks ++
        List.replicate (definition.index + 1 - self.activeChunks.length) none }
  else self

def hint (self : DeviceArena F) (definition : DefinitionId) : Option Nat :=
  self.activeChunks[definition.index]?.join

def setHint (self : DeviceArena F) (definition : DefinitionId) (chunk : Option Nat) :
    DeviceArena F :=
  { self with activeChunks := self.activeChunks.set definition.index chunk }

def hasRoom (definition : DefinitionId) (chunk : DeviceChunk F) : Bool :=
  chunk.definitionId = definition && !chunk.isFull

def findChunk (self : DeviceArena F) (definition : DefinitionId) : Option Nat × DeviceArena F :=
  match self.chunks.findIdx? (hasRoom definition) with
  | some index => (some index, self.setHint definition (some index))
  | none => (none, self)

def insertionChunk (self : DeviceArena F) (definition : DefinitionId) :
    Option Nat × DeviceArena F :=
  let self := self.ensureActiveSlot definition
  match self.hint definition with
  | some index =>
    if self.chunks[index]?.any (hasRoom definition) then (some index, self)
    else (self.setHint definition none).findChunk definition
  | none => self.findChunk definition

def prepareInsert (device : DeviceId) (definitionId : DefinitionId)
    (definition : DeviceDefinition F) :
    Call (DeviceArena F) NetworkModelError (PreparedDeviceInsert F) := do
  let (found, self) := (← Call.get).insertionChunk definitionId
  Call.set self
  match found with
  | some chunkIndex =>
    let chunk ← Call.expect self.chunks[chunkIndex]?
    let locator ← Call.expect (DeviceLocator.new chunkIndex chunk.len)
    pure { device, definitionId, location := .ofLocator locator
           createdChunk := false, newChunk := none }
  | none =>
    Call.rejectIf (self.chunks.length ≥ maxDeviceChunks) .deviceArenaExhausted
    let locator ← Call.expect (DeviceLocator.new self.chunks.length 0)
    pure { device, definitionId, location := .ofLocator locator
           createdChunk := true, newChunk := some (.new definitionId definition) }

def commitInsert [F64 F] {ε : Type} (prepared : PreparedDeviceInsert F) :
    Call (DeviceArena F) ε DeviceInsertResult := do
  let self ← Call.get
  let deviceIndex := prepared.device.index
  let chunkIndex := prepared.location.chunkIndex
  let row := prepared.location.row
  let chunks ← Call.expect
    (if prepared.createdChunk then prepared.newChunk.map fun chunk => self.chunks ++ [chunk]
    else some self.chunks)
  let chunk ← Call.expect chunks[chunkIndex]?
  let chunk := (chunk.pushEmptyRow prepared.device).2
  let locator ← Call.expect (DeviceLocator.new chunkIndex row)
  let entry := DeviceDirectoryEntry.resident locator
  let directory ← Call.expect
    (if deviceIndex = self.directory.length then some (self.directory ++ [entry])
    else assign self.directory deviceIndex entry)
  let activeChunks ← Call.expect (assign self.activeChunks prepared.definitionId.index
    (if chunk.isFull then none else some chunkIndex))
  Call.set { directory, chunks := chunks.set chunkIndex chunk, activeChunks }
  pure { chunkIndex, row, createdChunk := prepared.createdChunk }

/-! ### Reading and editing one device -/

def view [F64 F] (chunk : DeviceChunk F) (row : Nat) : DeviceView F where
  definitionId := chunk.definitionId
  terminals := chunk.terminalsAt row
  parameters := (chunk.parametersAt row).map decodeParameter

def device [F64 F] (device : DeviceId) :
    Call (DeviceArena F) NetworkModelError (DeviceView F) := do
  let locator ← resident device
  let self ← Call.get
  let chunk ← Call.expect self.chunks[locator.chunkIndex]?
  pure (view chunk locator.row)

def parameterAtLocation [F64 F] (self : DeviceArena F) (location : DeviceLocation)
    (parameter : ParameterId) : Option (Option F) := do
  let chunk ← self.chunks[location.chunkIndex]?
  if location.row ≥ chunk.len ∨ parameter.index ≥ chunk.parameterCount then none
  else
    let value ← chunk.parameters[location.row * chunk.parameterCount + parameter.index]?
    some (decodeParameter value)

def deviceIdsInChunk (self : DeviceArena F) (chunkIndex : Nat) : Option (List DeviceId) :=
  self.chunks[chunkIndex]?.map DeviceChunk.deviceIds

def iterDeviceIds (self : DeviceArena F) : List DeviceId := self.chunks.flatMap DeviceChunk.deviceIds

def setParameter (device : DeviceId) (parameter : ParameterId) (value : F) :
    Call (DeviceArena F) NetworkModelError Unit := do
  let locator ← resident device
  let self ← Call.get
  let chunk ← Call.expect self.chunks[locator.chunkIndex]?
  let index ← Call.okOr (chunk.parameterIndex locator.row parameter) (.invalidParameter parameter)
  let parameters ← Call.expect (assign chunk.parameters index value)
  Call.set { self with chunks := self.chunks.set locator.chunkIndex { chunk with parameters } }

def terminalConnection (device : DeviceId) (terminal : TerminalId) :
    Call (DeviceArena F) NetworkModelError (Option ConnectionRef) := do
  let locator ← resident device
  let self ← Call.get
  let chunk ← Call.expect self.chunks[locator.chunkIndex]?
  let index ← Call.okOr (chunk.terminalIndex locator.row terminal) .invalidTerminal
  Call.expect chunk.terminals[index]?

def attachTerminal (device : DeviceId) (terminal : TerminalId) (connection : ConnectionRef) :
    Call (DeviceArena F) NetworkModelError Unit := do
  let locator ← resident device
  let self ← Call.get
  let chunk ← Call.expect self.chunks[locator.chunkIndex]?
  let index ← Call.okOr (chunk.terminalIndex locator.row terminal) .invalidTerminal
  let current ← Call.expect chunk.terminals[index]?
  Call.rejectIf (current.isSome = true) .terminalAlreadyConnected
  let terminals ← Call.expect (assign chunk.terminals index (some connection))
  Call.set { self with chunks := self.chunks.set locator.chunkIndex { chunk with terminals } }

def detachTerminal (device : DeviceId) (terminal : TerminalId) :
    Call (DeviceArena F) NetworkModelError (Option ConnectionRef) := do
  let locator ← resident device
  let self ← Call.get
  let chunk ← Call.expect self.chunks[locator.chunkIndex]?
  let index ← Call.okOr (chunk.terminalIndex locator.row terminal) .invalidTerminal
  let current ← Call.expect chunk.terminals[index]?
  let terminals ← Call.expect (assign chunk.terminals index none)
  Call.set { self with chunks := self.chunks.set locator.chunkIndex { chunk with terminals } }
  pure current

/-! ### Removal -/

/-- The entry of the device moved into the removed row. -/
def pointMoved (locator : DeviceLocator) (movedDevice : Option DeviceId)
    (directory : List DeviceDirectoryEntry) : Option (List DeviceDirectoryEntry) :=
  match movedDevice with
  | some moved => assign directory moved.index (.resident locator)
  | none => some directory

/-- The loop that points the directory at the rows of a moved chunk. -/
def redirect (chunkIndex : Nat) :
    Nat → List DeviceId → List DeviceDirectoryEntry → Option (List DeviceDirectoryEntry)
  | _, [], directory => some directory
  | row, device :: devices, directory => do
    let locator ← DeviceLocator.new chunkIndex row
    let directory ← assign directory device.index (.resident locator)
    redirect chunkIndex (row + 1) devices directory

def remove (device : DeviceId) : Call (DeviceArena F) NetworkModelError DeviceRemoveResult := do
  let locator ← resident device
  let self ← Call.get
  let chunkIndex := locator.chunkIndex
  let row := locator.row
  let chunk ← Call.expect self.chunks[chunkIndex]?
  let removedDefinition := chunk.definitionId
  let (movedDevice, chunk) ← Call.expect (chunk.removeRow row)
  let chunks := self.chunks.set chunkIndex chunk
  let directory := self.directory.set device.index .unassigned
  let directory ← Call.expect (pointMoved locator movedDevice directory)
  if chunk.deviceIds ≠ [] then do
    let activeChunks ←
      Call.expect (assign self.activeChunks removedDefinition.index (some chunkIndex))
    Call.set { directory, chunks, activeChunks }
    pure { removedChunk := chunkIndex, removedRow := row, movedDevice, chunkRelocation := none }
  else do
    let hint ← Call.expect self.activeChunks[removedDefinition.index]?
    let activeChunks :=
      if hint = some chunkIndex then self.activeChunks.set removedDefinition.index none
      else self.activeChunks
    let lastChunkIndex := chunks.length - 1
    if chunkIndex = lastChunkIndex then do
      Call.set { directory, chunks := chunks.dropLast, activeChunks }
      pure { removedChunk := chunkIndex, removedRow := row, movedDevice, chunkRelocation := none }
    else do
      let last ← Call.expect chunks[lastChunkIndex]?
      let chunks := swapRemove chunks chunkIndex
      let directory ← Call.expect (redirect chunkIndex 0 last.deviceIds directory)
      let hint ← Call.expect activeChunks[last.definitionId.index]?
      let activeChunks :=
        if hint = some lastChunkIndex then
          activeChunks.set last.definitionId.index (some chunkIndex)
        else activeChunks
      Call.set { directory, chunks, activeChunks }
      pure { removedChunk := chunkIndex, removedRow := row, movedDevice
             chunkRelocation := some { fromChunk := lastChunkIndex, toChunk := chunkIndex } }

end DeviceArena

end Hynergy
