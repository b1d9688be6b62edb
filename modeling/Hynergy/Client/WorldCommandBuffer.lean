import Hynergy.Lib.Segment
import Hynergy.Model.Outcome

/-!
# The command buffer of the client

Commands are encoded one after the other into a segment that grows; the header is written once
and its command count when the segment is handed out.
-/

namespace Hynergy

open Lib

/-- A Java `int`, and the bits of a `double`. -/
abbrev JavaInt := BitVec 32
abbrev JavaDouble := BitVec 64

/-- `Double.isFinite`. -/
def JavaDouble.isFinite (value : JavaDouble) : Bool := (value >>> 52) &&& 0x7ff#64 != 0x7ff#64

/-- What a call throws. -/
inductive JavaException where
  | illegalArgument (name : String)
  | illegalState
  | outOfMemory
  | indexOutOfBounds
  deriving DecidableEq

structure WorldCommandBuffer where
  isOpen : Bool
  segment : List Byte
  capacity : Nat
  position : Nat
  commandCount : Nat

namespace WorldCommandBuffer

/-- A call on the buffer. -/
abbrev Java (α : Type) := Call WorldCommandBuffer JavaException α

def defaultCapacity : Nat := 256
def headerSize : Nat := 16
def commandHeaderSize : Nat := 6

/-- `Integer.MAX_VALUE`. -/
def maxCapacity : Nat := 2 ^ 31 - 1

def commandCountOffset : Nat := 12

def version : Nat := 1

abbrev addWireTag : Nat := 1
abbrev removeWireTag : Nat := 2
abbrev connectWiresTag : Nat := 3
abbrev disconnectWiresTag : Nat := 4
abbrev addDeviceTag : Nat := 5
abbrev removeDeviceTag : Nat := 6
abbrev attachTerminalTag : Nat := 7
abbrev detachTerminalTag : Nat := 8
abbrev setDeviceParameterTag : Nat := 9

/-- `segment.set(layout, offset, value)` with the bytes of the value. -/
def put (offset : Nat) (bytes : List Byte) : Java Unit := do
  let self ← Call.get
  let segment ← Call.okOr (writeAt self.segment offset bytes) .indexOutOfBounds
  Call.set { self with segment }

def initializeHeader : Java Unit := do
  put 0 [0x48]
  put 1 [0x59]
  put 2 [0x57]
  put 3 [0x43]
  put 4 (bytesOf 2 version)
  put 6 (bytesOf 2 0)
  put 8 (bytesOf 4 0)
  put commandCountOffset (bytesOf 4 0)

/-- The constructor; `allocates` tells whether memory is granted. -/
def new (initialCapacity : JavaInt) (allocates : Bool) : Outcome WorldCommandBuffer JavaException Unit :=
  let closed : WorldCommandBuffer := ⟨false, [], 0, 0, 0⟩
  if initialCapacity.toInt < headerSize then .err (.illegalArgument "initialCapacity") closed
  else if allocates = false then .err .outOfMemory closed
  else initializeHeader
    { isOpen := true, segment := List.replicate initialCapacity.toNat 0, capacity := initialCapacity.toNat
      position := headerSize, commandCount := 0 }

def requireOpen : Java Unit := do
  let self ← Call.get
  Call.rejectIf (self.isOpen = false) .illegalState

def requireNonZeroId (value : JavaInt) (name : String) : Java Unit :=
  Call.rejectIf (value = 0) (.illegalArgument name)

def requirePositiveId (value : JavaInt) (name : String) : Java Unit :=
  Call.rejectIf (value.toInt ≤ 0) (.illegalArgument name)

def requireIndex (value : JavaInt) (name : String) : Java Unit :=
  Call.rejectIf (value.toInt < 0) (.illegalArgument name)

def clear : Java Unit := do
  requireOpen
  Call.modify fun self => { self with position := headerSize, commandCount := 0 }

/-- The loop of `ensureCapacity`; the capacity doubles at most 31 times. -/
def grown : Nat → Nat → Nat → Option Nat
  | fuel, newCapacity, required =>
    if newCapacity < required then
      match fuel with
      | 0 => none
      | fuel + 1 => if maxCapacity / 2 < newCapacity then some required else grown fuel (newCapacity * 2) required
    else some newCapacity

/-- A new segment with the bytes up to the position. -/
def replaceBacking (allocates : Bool) (newCapacity : Nat) : Java Unit := do
  Call.rejectIf (allocates = false) .outOfMemory
  let self ← Call.get
  Call.rejectIf (self.segment.length < self.position) .indexOutOfBounds
  let segment ← Call.okOr (writeAt (List.replicate newCapacity 0) 0 (self.segment.take self.position))
    .indexOutOfBounds
  Call.set { self with segment, capacity := newCapacity }

def ensureCapacity (allocates : Bool) (additionalBytes : Nat) : Java Unit := do
  let self ← Call.get
  let required := self.position + additionalBytes
  if required ≤ self.capacity then pure ()
  else do
    Call.rejectIf (maxCapacity < required) .illegalState
    let newCapacity ← Call.expect (grown 32 self.capacity required)
    replaceBacking allocates newCapacity

def beginCommand (allocates : Bool) (tag payloadSize : Nat) : Java Nat := do
  requireOpen
  ensureCapacity allocates (commandHeaderSize + payloadSize)
  let self ← Call.get
  let commandOffset := self.position
  put commandOffset (bytesOf 2 tag)
  put (commandOffset + 2) (bytesOf 4 payloadSize)
  pure (commandOffset + commandHeaderSize)

def finishCommand (payloadSize : Nat) : Java Unit :=
  Call.modify fun self =>
    { self with position := self.position + (commandHeaderSize + payloadSize), commandCount := self.commandCount + 1 }

def writeU32 (offset : Nat) (value : JavaInt) : Java Unit := put offset (bytesOf 4 value.toNat)

def addWire (allocates : Bool) (wireId : JavaInt) : Java Unit := do
  requirePositiveId wireId "wireId"
  let payload ← beginCommand allocates addWireTag 4
  writeU32 payload wireId
  finishCommand 4

def removeWire (allocates : Bool) (wireId : JavaInt) : Java Unit := do
  requirePositiveId wireId "wireId"
  let payload ← beginCommand allocates removeWireTag 4
  writeU32 payload wireId
  finishCommand 4

def connectWires (allocates : Bool) (wireAId wireBId : JavaInt) : Java Unit := do
  requirePositiveId wireAId "wireAId"
  requirePositiveId wireBId "wireBId"
  let payload ← beginCommand allocates connectWiresTag 8
  writeU32 payload wireAId
  writeU32 (payload + 4) wireBId
  finishCommand 8

def disconnectWires (allocates : Bool) (wireAId wireBId : JavaInt) : Java Unit := do
  requirePositiveId wireAId "wireAId"
  requirePositiveId wireBId "wireBId"
  let payload ← beginCommand allocates disconnectWiresTag 8
  writeU32 payload wireAId
  writeU32 (payload + 4) wireBId
  finishCommand 8

def addDevice (allocates : Bool) (deviceId definitionId : JavaInt) : Java Unit := do
  requirePositiveId deviceId "deviceId"
  requireNonZeroId definitionId "definitionId"
  let payload ← beginCommand allocates addDeviceTag 8
  writeU32 payload deviceId
  writeU32 (payload + 4) definitionId
  finishCommand 8

def removeDevice (allocates : Bool) (deviceId : JavaInt) : Java Unit := do
  requirePositiveId deviceId "deviceId"
  let payload ← beginCommand allocates removeDeviceTag 4
  writeU32 payload deviceId
  finishCommand 4

def attachTerminal (allocates : Bool) (wireId deviceId terminalId : JavaInt) : Java Unit := do
  requirePositiveId wireId "wireId"
  requirePositiveId deviceId "deviceId"
  requireIndex terminalId "terminalId"
  let payload ← beginCommand allocates attachTerminalTag 12
  writeU32 payload wireId
  writeU32 (payload + 4) deviceId
  writeU32 (payload + 8) terminalId
  finishCommand 12

def detachTerminal (allocates : Bool) (wireId deviceId terminalId : JavaInt) : Java Unit := do
  requirePositiveId wireId "wireId"
  requirePositiveId deviceId "deviceId"
  requireIndex terminalId "terminalId"
  let payload ← beginCommand allocates detachTerminalTag 12
  writeU32 payload wireId
  writeU32 (payload + 4) deviceId
  writeU32 (payload + 8) terminalId
  finishCommand 12

def setDeviceParameter (allocates : Bool) (deviceId parameterId : JavaInt) (value : JavaDouble) : Java Unit := do
  requirePositiveId deviceId "deviceId"
  requireIndex parameterId "parameterId"
  Call.rejectIf (JavaDouble.isFinite value = false) (.illegalArgument "value")
  let payload ← beginCommand allocates setDeviceParameterTag 16
  writeU32 payload deviceId
  writeU32 (payload + 4) parameterId
  put (payload + 8) (bytesOf 8 value.toNat)
  finishCommand 16

/-- The whole segment, with the command count in its header. -/
def encodedSegment : Java (List Byte) := do
  requireOpen
  let self ← Call.get
  put commandCountOffset (bytesOf 4 self.commandCount)
  let self ← Call.get
  pure self.segment

def byteSize : Java Nat := do
  requireOpen
  let self ← Call.get
  pure self.position

def close : Java Unit :=
  Call.modify fun self => if self.isOpen then ⟨false, [], 0, 0, 0⟩ else self

/-- A call of a user of the buffer. -/
inductive BufferCall where
  | addWire (wireId : JavaInt)
  | removeWire (wireId : JavaInt)
  | connectWires (wireAId wireBId : JavaInt)
  | disconnectWires (wireAId wireBId : JavaInt)
  | addDevice (deviceId definitionId : JavaInt)
  | removeDevice (deviceId : JavaInt)
  | attachTerminal (wireId deviceId terminalId : JavaInt)
  | detachTerminal (wireId deviceId terminalId : JavaInt)
  | setDeviceParameter (deviceId parameterId : JavaInt) (value : JavaDouble)
  | clear
  | encodedSegment
  | close

def BufferCall.run (allocates : Bool) : BufferCall → Java Unit
  | .addWire wireId => WorldCommandBuffer.addWire allocates wireId
  | .removeWire wireId => WorldCommandBuffer.removeWire allocates wireId
  | .connectWires wireAId wireBId => WorldCommandBuffer.connectWires allocates wireAId wireBId
  | .disconnectWires wireAId wireBId => WorldCommandBuffer.disconnectWires allocates wireAId wireBId
  | .addDevice deviceId definitionId => WorldCommandBuffer.addDevice allocates deviceId definitionId
  | .removeDevice deviceId => WorldCommandBuffer.removeDevice allocates deviceId
  | .attachTerminal wireId deviceId terminalId => WorldCommandBuffer.attachTerminal allocates wireId deviceId terminalId
  | .detachTerminal wireId deviceId terminalId => WorldCommandBuffer.detachTerminal allocates wireId deviceId terminalId
  | .setDeviceParameter deviceId parameterId value =>
    WorldCommandBuffer.setDeviceParameter allocates deviceId parameterId value
  | .clear => WorldCommandBuffer.clear
  | .encodedSegment => do
    let _ ← WorldCommandBuffer.encodedSegment
    pure ()
  | .close => WorldCommandBuffer.close

end WorldCommandBuffer

end Hynergy
