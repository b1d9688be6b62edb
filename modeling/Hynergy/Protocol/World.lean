import Hynergy.Protocol.Decoder
import Hynergy.World.Commands

/-!
# World command buffers

A header and framed commands. The commands are applied while the buffer is read; the first
error stops both.
-/

namespace Hynergy

open Lib

inductive WorldCommandErrorKind where
  | invalidMagic | unsupportedVersion | invalidFlags | invalidReserved | truncatedInput | unknownCommand
  | invalidCommandLength | invalidId | trailingBytes | unknownWorld
  | idOutOfBound | idExceeds31Bit | idAlreadyAssigned | idNotAssigned | wireConnectToSelf | alreadyConnected
  | notConnected | terminalAlreadyConnected | invalidTerminal | invalidParameter | parameterConstraintViolation
  | unknownDefinition | resourceExhausted
  deriving DecidableEq

structure WorldCommandError where
  kind : WorldCommandErrorKind
  commandIndex : Nat
  byteOffset : Nat
  deriving DecidableEq

/-- `u32::MAX`. -/
def u32Max : Nat := 2 ^ 32 - 1

namespace WorldCommandError

/-- The offset is cast to `u32`. -/
def new (kind : WorldCommandErrorKind) (commandIndex byteOffset : Nat) : WorldCommandError :=
  ⟨kind, commandIndex, byteOffset % 2 ^ 32⟩

def header (kind : WorldCommandErrorKind) (byteOffset : Nat) : WorldCommandError := new kind u32Max byteOffset

def world (kind : WorldCommandErrorKind) : WorldCommandError := ⟨kind, u32Max, u32Max⟩

end WorldCommandError

inductive WorldCommandApplyError where
  | unknownWorld
  | model (error : NetworkModelError)

namespace WorldCommands

def worldCommandBufferVersion : Nat := 1

/-- `HYWC`. -/
def worldCommandBufferMagic : List Byte := [0x48, 0x59, 0x57, 0x43]

@[match_pattern] abbrev addWireTag : Nat := 1
@[match_pattern] abbrev removeWireTag : Nat := 2
@[match_pattern] abbrev connectWiresTag : Nat := 3
@[match_pattern] abbrev disconnectWiresTag : Nat := 4
@[match_pattern] abbrev addDeviceTag : Nat := 5
@[match_pattern] abbrev removeDeviceTag : Nat := 6
@[match_pattern] abbrev attachTerminalTag : Nat := 7
@[match_pattern] abbrev detachTerminalTag : Nat := 8
@[match_pattern] abbrev setDeviceParameterTag : Nat := 9

def expectedWorldPayloadLength (tag : Nat) : Option Nat :=
  match tag with
  | addWireTag | removeWireTag | removeDeviceTag => some 4
  | connectWiresTag | disconnectWiresTag | addDeviceTag => some 8
  | attachTerminalTag | detachTerminalTag => some 12
  | setDeviceParameterTag => some 16
  | _ => none

/-! ### Decoding -/

/-- A call on the decoder of a buffer. -/
abbrev Decode (α : Type) := Decoder.Read WorldCommandError α

def truncated (error : Truncated) (commandIndex : Nat) : WorldCommandError :=
  .new .truncatedInput commandIndex error.offset

def truncatedHeader (error : Truncated) : WorldCommandError := .header .truncatedInput error.offset

def decodeNonZeroId (kind : NonZeroIdKind) (commandIndex : Nat) : Decode (NonZeroId kind) := do
  let self ← Call.get
  let raw ← Call.mapErr (truncated · commandIndex) Decoder.readU32
  Call.okOr (nonZeroId? raw) (.new .invalidId commandIndex self.offset)

/-- A `u32`, made an id; `From` never fails. -/
def decodeId (kind : IdKind) (commandIndex : Nat) : Decode (Id kind) := do
  let raw ← Call.mapErr (truncated · commandIndex) Decoder.readU32
  Call.expect (Id.ofIndex? raw)

/-- A double is its bits. -/
abbrev RawCommand := WorldCommand (BitVec 64)

def decodeWorldCommand (tag commandIndex commandOffset : Nat) : Decode RawCommand :=
  match tag with
  | addWireTag => do
    let wire ← decodeNonZeroId .wire commandIndex
    pure (.addWire wire)
  | removeWireTag => do
    let wire ← decodeNonZeroId .wire commandIndex
    pure (.removeWire wire)
  | connectWiresTag => do
    let wireA ← decodeNonZeroId .wire commandIndex
    let wireB ← decodeNonZeroId .wire commandIndex
    pure (.connectWires wireA wireB)
  | disconnectWiresTag => do
    let wireA ← decodeNonZeroId .wire commandIndex
    let wireB ← decodeNonZeroId .wire commandIndex
    pure (.disconnectWires wireA wireB)
  | addDeviceTag => do
    let device ← decodeNonZeroId .device commandIndex
    let definition ← decodeNonZeroId .definition commandIndex
    pure (.addDevice device definition)
  | removeDeviceTag => do
    let device ← decodeNonZeroId .device commandIndex
    pure (.removeDevice device)
  | attachTerminalTag => do
    let wire ← decodeNonZeroId .wire commandIndex
    let device ← decodeNonZeroId .device commandIndex
    let terminal ← decodeId .terminal commandIndex
    pure (.attachTerminal wire device terminal)
  | detachTerminalTag => do
    let wire ← decodeNonZeroId .wire commandIndex
    let device ← decodeNonZeroId .device commandIndex
    let terminal ← decodeId .terminal commandIndex
    pure (.detachTerminal wire device terminal)
  | setDeviceParameterTag => do
    let device ← decodeNonZeroId .device commandIndex
    let parameter ← decodeId .parameter commandIndex
    let value ← Call.mapErr (truncated · commandIndex) Decoder.readF64
    pure (.setDeviceParameter device parameter value)
  | _ => Call.throw (.new .unknownCommand commandIndex commandOffset)

/-- A command in its frame of tag, payload length and payload, with the offset of the frame. -/
def decodeFrame (commandIndex : Nat) : Decode (RawCommand × Nat) := do
  let self ← Call.get
  let commandOffset := self.offset
  let tag ← Call.mapErr (truncated · commandIndex) Decoder.readU16
  let payloadLength ← Call.mapErr (truncated · commandIndex) Decoder.readU32
  let expectedLength ← Call.okOr (expectedWorldPayloadLength tag) (.new .unknownCommand commandIndex commandOffset)
  Call.rejectIf (payloadLength ≠ expectedLength) (.new .invalidCommandLength commandIndex commandOffset)
  let self ← Call.get
  let payload ← Call.mapErr (truncated · commandIndex) (Decoder.readBytes payloadLength)
  let (command, empty) ← Decoder.within (Decoder.new payload self.offset) do
    let command ← decodeWorldCommand tag commandIndex commandOffset
    let self ← Call.get
    let empty ← Call.expect self.isEmpty
    pure (command, empty)
  Call.rejectIf (empty = false) (.new .invalidCommandLength commandIndex commandOffset)
  pure (command, commandOffset)

def kindOfHeaderError : Decoder.HeaderErrorKind → WorldCommandErrorKind
  | .invalidMagic => .invalidMagic
  | .unsupportedVersion => .unsupportedVersion
  | .invalidFlags => .invalidFlags
  | .invalidReserved => .invalidReserved

def decodeHeader : Decode Nat :=
  Decoder.readHeader worldCommandBufferMagic worldCommandBufferVersion truncatedHeader fun kind offset =>
    .header (kindOfHeaderError kind) offset

/-! ### Applying -/

def kindOfModelError : NetworkModelError → WorldCommandErrorKind
  | .idOutOfBound .. => .idOutOfBound
  | .idExceeds31Bit .. => .idExceeds31Bit
  | .idAlreadyAssigned .. => .idAlreadyAssigned
  | .idNotAssigned .. => .idNotAssigned
  | .wireConnectToSelf => .wireConnectToSelf
  | .alreadyConnected => .alreadyConnected
  | .notConnected => .notConnected
  | .terminalAlreadyConnected => .terminalAlreadyConnected
  | .invalidTerminal => .invalidTerminal
  | .invalidParameter .. => .invalidParameter
  | .parameterConstraintViolation .. => .parameterConstraintViolation
  | .unknownDefinition .. => .unknownDefinition
  | .deviceArenaExhausted => .resourceExhausted

def mapWorldApplyError (error : WorldCommandApplyError) (commandIndex commandOffset : Nat) : WorldCommandError :=
  match error with
  | .unknownWorld => .new .unknownWorld commandIndex commandOffset
  | .model error => .new (kindOfModelError error) commandIndex commandOffset

variable {σ : Type}

/-- The decoder and what the commands are applied to. -/
abbrev Applying (σ α : Type) := Call (Decoder × σ) WorldCommandError α

def decoding {α : Type} (call : Decode α) : Applying σ α :=
  Call.zoom Prod.fst (fun state decoder => (decoder, state.2)) id call

/-- The loop over the commands from an index on. -/
def applyCommands (apply : RawCommand → Call σ WorldCommandApplyError Unit) : Nat → Nat → Applying σ Unit
  | 0, _ => pure ()
  | remaining + 1, commandIndex => do
    let (command, commandOffset) ← decoding (decodeFrame commandIndex)
    Call.zoom Prod.snd (fun state after => (state.1, after))
      (mapWorldApplyError · commandIndex commandOffset) (apply command)
    applyCommands apply remaining (commandIndex + 1)

def applyBuffer (worldExists : Bool) (apply : RawCommand → Call σ WorldCommandApplyError Unit) :
    Applying σ Unit := do
  let commandCount ← decoding decodeHeader
  Call.rejectIf (worldExists = false) (.world .unknownWorld)
  applyCommands apply commandCount 0
  let self ← Call.get
  let empty ← Call.expect self.1.isEmpty
  Call.rejectIf (empty = false) (.new .trailingBytes commandCount self.1.offset)

/-- The decoder starts at the front of the input and is dropped at the end. -/
def applyWorldCommandBufferInner (input : List Byte) (worldExists : Bool)
    (apply : RawCommand → Call σ WorldCommandApplyError Unit) : Call σ WorldCommandError Unit := fun start =>
  match applyBuffer worldExists apply (Decoder.new input 0, start) with
  | .ok value after => .ok value after.2
  | .err error after => .err error after.2
  | .panic => .panic

end WorldCommands

end Hynergy
