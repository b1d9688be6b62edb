import Hynergy.Model.Building
import Hynergy.Protocol.Decoder

/-!
# Definition buffers

A header and framed additions to a definition, applied to a builder while the buffer is read.
-/

namespace Hynergy

open Lib

inductive DefinitionRegistrationErrorKind where
  | invalidMagic | unsupportedVersion | invalidFlags | invalidReserved | truncatedInput | unknownCommand
  | invalidCommandLength | invalidCount | invalidDefinitionId | unknownValueKind | trailingBytes
  | unknownDefinition | terminalCountMismatch | parameterCountMismatch | nodeOutOfRange | parameterOutOfRange
  | parameterConstraintViolation | nodeIdExhausted | parameterIdExhausted | definitionIdExhausted
  | invalidDefinition | invalidPrimitiveParameters | unusedInternalNode | incompatibleParameterConstraints
  | unusedParameter | devicePartitionIdExhausted | stateCountExhausted
  deriving DecidableEq

structure DefinitionRegistrationError where
  kind : DefinitionRegistrationErrorKind
  commandIndex : Nat
  byteOffset : Nat
  deriving DecidableEq

namespace DefinitionRegistrationError

/-- The offset is cast to `u32`; commands and headers are located alike. -/
def new (kind : DefinitionRegistrationErrorKind) (commandIndex byteOffset : Nat) : DefinitionRegistrationError :=
  ⟨kind, commandIndex, byteOffset % 2 ^ 32⟩

def header (kind : DefinitionRegistrationErrorKind) (byteOffset : Nat) : DefinitionRegistrationError :=
  new kind (2 ^ 32 - 1) byteOffset

end DefinitionRegistrationError

namespace DefinitionCommands

variable {F : Type}

def definitionBufferVersion : Nat := 1

/-- `HYDF`. -/
def definitionBufferMagic : List Byte := [0x48, 0x59, 0x44, 0x46]

@[match_pattern] abbrev addTerminalTag : Nat := 1
@[match_pattern] abbrev addNodeTag : Nat := 2
@[match_pattern] abbrev addParameterTag : Nat := 3
@[match_pattern] abbrev addElementTag : Nat := 4
@[match_pattern] abbrev addVoltageObserverTag : Nat := 5
@[match_pattern] abbrev addChildObserverTag : Nat := 6

@[match_pattern] abbrev valueLiteral : Nat := 0
@[match_pattern] abbrev valueParameter : Nat := 1

/-! ### Flags of constraints -/

def constraintLower : BitVec 16 := 1 <<< 0
def constraintLowerInclusive : BitVec 16 := 1 <<< 1
def constraintUpper : BitVec 16 := 1 <<< 2
def constraintUpperInclusive : BitVec 16 := 1 <<< 3
def constraintNonZero : BitVec 16 := 1 <<< 4
def constraintReciprocalRange : BitVec 16 := 1 <<< 5
def constraintReciprocalLower : BitVec 16 := 1 <<< 6
def constraintReciprocalLowerInclusive : BitVec 16 := 1 <<< 7
def constraintReciprocalUpper : BitVec 16 := 1 <<< 8
def constraintReciprocalUpperInclusive : BitVec 16 := 1 <<< 9

def constraintKnownFlags : BitVec 16 :=
  constraintLower ||| constraintLowerInclusive ||| constraintUpper ||| constraintUpperInclusive |||
    constraintNonZero ||| constraintReciprocalRange ||| constraintReciprocalLower |||
    constraintReciprocalLowerInclusive ||| constraintReciprocalUpper ||| constraintReciprocalUpperInclusive

/-- `flags & flag != 0`. -/
def hasFlag (flags flag : BitVec 16) : Bool := flags &&& flag != 0

/-- The flags that `decode_constraints` refuses. -/
def refusesFlags (flags : BitVec 16) : Bool :=
  hasFlag flags (~~~constraintKnownFlags) ||
    (hasFlag flags constraintLowerInclusive && !hasFlag flags constraintLower) ||
    (hasFlag flags constraintUpperInclusive && !hasFlag flags constraintUpper) ||
    (hasFlag flags constraintReciprocalLowerInclusive && !hasFlag flags constraintReciprocalLower) ||
    (hasFlag flags constraintReciprocalUpperInclusive && !hasFlag flags constraintReciprocalUpper) ||
    (hasFlag flags (constraintReciprocalLower ||| constraintReciprocalLowerInclusive |||
      constraintReciprocalUpper ||| constraintReciprocalUpperInclusive) && !hasFlag flags constraintReciprocalRange)

/-! ### Decoding -/

/-- A call on the decoder of a buffer. -/
abbrev Decode (α : Type) := Decoder.Read DefinitionRegistrationError α

def truncated (commandIndex : Nat) (error : Truncated) : DefinitionRegistrationError :=
  .new .truncatedInput commandIndex error.offset

def truncatedHeader (error : Truncated) : DefinitionRegistrationError := .header .truncatedInput error.offset

/-- A read inside a command. -/
def read {α : Type} (commandIndex : Nat) (call : Decoder.Read Truncated α) : Decode α :=
  Call.mapErr (truncated commandIndex) call

/-- A `u32`, made an id; `From` never fails. -/
def readId (kind : IdKind) (commandIndex : Nat) : Decode (Id kind) := do
  let raw ← read commandIndex Decoder.readU32
  Call.expect (Id.ofIndex? raw)

def repeated {α : Type} (call : Decode α) : Nat → Decode (List α)
  | 0 => pure []
  | count + 1 => do
    let value ← call
    let values ← repeated call count
    pure (value :: values)

def decodeBound (fromBits : BitVec 64 → F) (flags present inclusive : BitVec 16) :
    Decoder.Read Truncated (Option (Bound F)) :=
  if hasFlag flags present = false then pure none
  else do
    let bits ← Decoder.readF64
    pure (some { value := fromBits bits, inclusive := hasFlag flags inclusive })

def decodeConstraints (fromBits : BitVec 64 → F) (commandIndex : Nat) : Decode (ParameterConstraints F) := do
  let self ← Call.get
  let raw ← read commandIndex Decoder.readU16
  let flags := BitVec.ofNat 16 raw
  Call.rejectIf (refusesFlags flags = true) (.new .invalidFlags commandIndex self.offset)
  let lower ← read commandIndex (decodeBound fromBits flags constraintLower constraintLowerInclusive)
  let upper ← read commandIndex (decodeBound fromBits flags constraintUpper constraintUpperInclusive)
  let nonZero := hasFlag flags constraintNonZero
  if hasFlag flags constraintReciprocalRange = false then pure { lower, upper, nonZero, reciprocalRange := none }
  else do
    let reciprocalLower ← read commandIndex
      (decodeBound fromBits flags constraintReciprocalLower constraintReciprocalLowerInclusive)
    let reciprocalUpper ← read commandIndex
      (decodeBound fromBits flags constraintReciprocalUpper constraintReciprocalUpperInclusive)
    pure { lower, upper, nonZero, reciprocalRange := some (reciprocalLower, reciprocalUpper) }

def decodeValue (fromBits : BitVec 64 → F) (commandIndex : Nat) : Decode (ValueRef F) := do
  let self ← Call.get
  let kind ← read commandIndex Decoder.readU8
  match kind with
  | valueLiteral => do
    let bits ← read commandIndex Decoder.readF64
    pure (.literal (fromBits bits))
  | valueParameter => do
    let parameter ← readId .parameter commandIndex
    pure (.parameter parameter)
  | _ => Call.throw (.new .unknownValueKind commandIndex self.offset)

/-- A count that cannot exceed what is left, at so many bytes for each. -/
def decodeCount (size commandIndex : Nat) : Decode Nat := do
  let start ← Call.get
  let count ← read commandIndex Decoder.readU32
  let self ← Call.get
  let remaining ← Call.expect self.remaining
  Call.rejectIf (count > remaining / size) (.new .invalidCount commandIndex start.offset)
  pure count

def decodeElement (fromBits : BitVec 64 → F) (commandIndex : Nat) : Decode (Element F) := do
  let self ← Call.get
  let rawDefinition ← read commandIndex Decoder.readU32
  let definition ← Call.okOr (nonZeroId? rawDefinition) (.new .invalidDefinitionId commandIndex self.offset)
  let terminalCount ← decodeCount 4 commandIndex
  let terminals ← repeated (readId .node commandIndex) terminalCount
  let parameterCount ← decodeCount (1 + 4) commandIndex
  let parameters ← repeated (decodeValue fromBits commandIndex) parameterCount
  pure { definition, terminals, parameters }

/-- The payload of a command, up to the check that it is used up. -/
def decodePayload (fromBits : BitVec 64 → F) (tag commandIndex commandOffset : Nat) :
    Decode (DeviceDefinitionBuilder.Operation F) :=
  match tag with
  | addTerminalTag => pure .addTerminal
  | addNodeTag => pure .addNode
  | addParameterTag => do
    let constraints ← decodeConstraints fromBits commandIndex
    pure (.addParameter constraints)
  | addElementTag => do
    let element ← decodeElement fromBits commandIndex
    pure (.addElement element)
  | addVoltageObserverTag => do
    let positive ← readId .node commandIndex
    let negative ← readId .node commandIndex
    pure (.addVoltageObserver positive negative)
  | addChildObserverTag => do
    let element ← readId .element commandIndex
    let observer ← readId .observer commandIndex
    pure (.addChildObserver element observer)
  | _ => Call.throw (.new .unknownCommand commandIndex commandOffset)

/-- A command in its frame of tag, payload length and payload, with the offset of the frame. -/
def decodeCommand (fromBits : BitVec 64 → F) (commandIndex : Nat) :
    Decode (DeviceDefinitionBuilder.Operation F × Nat) := do
  let start ← Call.get
  let commandOffset := start.offset
  let tag ← read commandIndex Decoder.readU16
  let payloadLength ← read commandIndex Decoder.readU32
  let self ← Call.get
  let payload ← read commandIndex (Decoder.readBytes payloadLength)
  let operation ← Decoder.within (Decoder.new payload self.offset) do
    let operation ← decodePayload fromBits tag commandIndex commandOffset
    let self ← Call.get
    let empty ← Call.expect self.isEmpty
    Call.rejectIf (empty = false) (.new .invalidCommandLength commandIndex commandOffset)
    pure operation
  pure (operation, commandOffset)

def kindOfHeaderError : Decoder.HeaderErrorKind → DefinitionRegistrationErrorKind
  | .invalidMagic => .invalidMagic
  | .unsupportedVersion => .unsupportedVersion
  | .invalidFlags => .invalidFlags
  | .invalidReserved => .invalidReserved

def decodeHeader : Decode Nat :=
  Decoder.readHeader definitionBufferMagic definitionBufferVersion truncatedHeader fun kind offset =>
    .header (kindOfHeaderError kind) offset

/-! ### Building -/

def kindOfBuilderError : DeviceDefinitionBuilderError → DefinitionRegistrationErrorKind
  | .unknownDefinition .. => .unknownDefinition
  | .terminalCountMismatch .. => .terminalCountMismatch
  | .parameterCountMismatch .. => .parameterCountMismatch
  | .nodeOutOfRange .. | .observerNodeOutOfRange .. => .nodeOutOfRange
  | .parameterOutOfRange .. => .parameterOutOfRange
  | .parameterConstraint .. => .parameterConstraintViolation
  | .primitiveParameters .. => .invalidPrimitiveParameters
  | .unusedInternalNode .. => .unusedInternalNode
  | .nodeIdExhausted => .nodeIdExhausted
  | .parameterIdExhausted => .parameterIdExhausted
  | .elementIdExhausted | .definitionObserverIdExhausted | .observerElementOutOfRange ..
  | .childObserverOutOfRange .. | .observerCrossesPartitions .. => .invalidDefinition
  | .parameterConstraintsIncompatible .. => .incompatibleParameterConstraints
  | .unusedParameter .. => .unusedParameter
  | .devicePartitionIdExhausted => .devicePartitionIdExhausted
  | .stateCountExhausted => .stateCountExhausted

def mapBuilderError (commandIndex commandOffset : Nat) (error : DeviceDefinitionBuilderError) :
    DefinitionRegistrationError :=
  .new (kindOfBuilderError error) commandIndex commandOffset

def kindOfRegistryError : RegisterDeviceError → DefinitionRegistrationErrorKind
  | .definitionIdExhausted => .definitionIdExhausted
  | .primitiveRegistrationForbidden .. | .terminalCountExceedsNodeCount .. | .unknownDefinition .. =>
    .invalidDefinition

def mapRegistryError (error : RegisterDeviceError) : DefinitionRegistrationError :=
  .header (kindOfRegistryError error) (2 ^ 32 - 1)

variable [F64 F]

/-- The decoder and the builder. -/
abbrev Building (F α : Type) := Call (Decoder × DeviceDefinitionBuilder F) DefinitionRegistrationError α

def decoding {α : Type} (call : Decode α) : Building F α :=
  Call.zoom Prod.fst (fun state decoder => (decoder, state.2)) id call

/-- The loop over the commands from an index on. -/
def buildCommands (fromBits : BitVec 64 → F) : Nat → Nat → Building F Unit
  | 0, _ => pure ()
  | remaining + 1, commandIndex => do
    let (operation, commandOffset) ← decoding (decodeCommand fromBits commandIndex)
    Call.zoom Prod.snd (fun state builder => (state.1, builder)) (mapBuilderError commandIndex commandOffset)
      operation.apply
    buildCommands fromBits remaining (commandIndex + 1)

/-- The buffer up to its end, with the number of its commands. -/
def buildBuffer (fromBits : BitVec 64 → F) : Building F Nat := do
  let commandCount ← decoding decodeHeader
  buildCommands fromBits commandCount 0
  let self ← Call.get
  let empty ← Call.expect self.1.isEmpty
  Call.rejectIf (empty = false) (.new .trailingBytes commandCount self.1.offset)
  pure commandCount

/-- `none` is a panic. -/
def decodeDefinitionBuffer (definitions : DefinitionRegistry F) (fromBits : BitVec 64 → F) (input : List Byte) :
    Option (Except DefinitionRegistrationError (DeviceDefinition F)) :=
  match buildBuffer fromBits (Decoder.new input 0, { registry := definitions }) with
  | .panic => none
  | .err error _ => some (.error error)
  | .ok commandCount (decoder, builder) =>
    builder.buildDefinition.map (Except.mapError (mapBuilderError commandCount decoder.offset))

def registerDecodedDefinition (definitions : DefinitionRegistry F) (definition : DeviceDefinition F) :
    Except DefinitionRegistrationError (DefinitionId × DefinitionRegistry F) :=
  (definitions.register definition).mapError mapRegistryError

end DefinitionCommands

end Hynergy
