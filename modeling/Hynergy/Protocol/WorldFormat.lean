import Hynergy.Protocol.Parsing
import Hynergy.Protocol.World

/-!
# The format of world command buffers

The bytes of a list of commands. The decoder accepts exactly these, command by command.
-/

namespace Hynergy

open Lib

open Decoder (readF64_front readF64_ok rest_after sound_after)

namespace WorldCommands

/-! ### Encoding -/

def tagOf : RawCommand → Nat
  | .addWire _ => addWireTag
  | .removeWire _ => removeWireTag
  | .connectWires _ _ => connectWiresTag
  | .disconnectWires _ _ => disconnectWiresTag
  | .addDevice _ _ => addDeviceTag
  | .removeDevice _ => removeDeviceTag
  | .attachTerminal _ _ _ => attachTerminalTag
  | .detachTerminal _ _ _ => detachTerminalTag
  | .setDeviceParameter _ _ _ => setDeviceParameterTag

def payloadOf : RawCommand → List Byte
  | .addWire wire | .removeWire wire => bytesOf 4 wire.get
  | .connectWires wireA wireB | .disconnectWires wireA wireB => bytesOf 4 wireA.get ++ bytesOf 4 wireB.get
  | .addDevice device definition => bytesOf 4 device.get ++ bytesOf 4 definition.get
  | .removeDevice device => bytesOf 4 device.get
  | .attachTerminal wire device terminal | .detachTerminal wire device terminal =>
    bytesOf 4 wire.get ++ (bytesOf 4 device.get ++ bytesOf 4 terminal.id)
  | .setDeviceParameter device parameter value =>
    bytesOf 4 device.get ++ (bytesOf 4 parameter.id ++ bytesOf 8 value.toNat)

def encodeCommand (command : RawCommand) : List Byte :=
  bytesOf 2 (tagOf command) ++ (bytesOf 4 (payloadOf command).length ++ payloadOf command)

def encodeCommands (commands : List RawCommand) : List Byte := commands.flatMap encodeCommand

/-- The header of a buffer with so many commands. -/
def encodeHeader (count : Nat) : List Byte :=
  worldCommandBufferMagic ++ (bytesOf 2 worldCommandBufferVersion ++ (bytesOf 2 0 ++ (bytesOf 4 0 ++ bytesOf 4 count)))

def encodeBuffer (commands : List RawCommand) : List Byte :=
  encodeHeader commands.length ++ encodeCommands commands

theorem expected_tagOf (command : RawCommand) :
    expectedWorldPayloadLength (tagOf command) = some (payloadOf command).length := by
  cases command <;> simp [tagOf, payloadOf] <;> rfl

theorem length_encodeCommand (command : RawCommand) :
    (encodeCommand command).length = 6 + (payloadOf command).length := by
  simp only [encodeCommand, List.length_append, length_bytesOf]
  omega

theorem payload_small (command : RawCommand) : (payloadOf command).length ≤ 16 := by
  cases command <;> simp [payloadOf]

theorem tag_small (command : RawCommand) : tagOf command < 256 ^ 2 := by
  cases command <;> (simp only [tagOf]; decide)

/-! ### Ids and payloads -/

section Payload

variable {self : Decoder} {kind : NonZeroIdKind} {commandIndex commandOffset : Nat}

theorem decodeNonZeroId_front (h : self.Sound) {id : NonZeroId kind} {tail : List Byte}
    (front : self.rest = bytesOf 4 id.get ++ tail) :
    decodeNonZeroId kind commandIndex self = .ok id (self.advance 4) := by
  have fits : id.get < 256 ^ 4 := id.fits
  unfold decodeNonZeroId
  rw [Call.get_bind, Call.bind_ok (Call.mapErr_ok (Decoder.readNumber_of_rest h fits front)), nonZeroId?,
    dif_pos ⟨id.pos, id.fits⟩]
  rfl

/-- A read of four bytes gives an id or fails on a zero. -/
theorem decodeNonZeroId_cases (h : self.Sound) (enough : 4 ≤ self.rest.length) :
    (∃ id : NonZeroId kind, decodeNonZeroId kind commandIndex self = .ok id (self.advance 4) ∧
        self.rest = bytesOf 4 id.get ++ (self.advance 4).rest) ∨
      decodeNonZeroId kind commandIndex self = .err (.new .invalidId commandIndex self.offset) (self.advance 4) := by
  have length : (self.rest.take 4).length = 4 := List.length_take_of_le enough
  have fits : ofBytes (self.rest.take 4) < 2 ^ 32 := by
    have := ofBytes_lt (self.rest.take 4)
    rwa [length] at this
  unfold decodeNonZeroId
  rw [Call.get_bind, Call.bind_ok (Call.mapErr_ok (Decoder.readNumber_ok h enough)), nonZeroId?]
  by_cases positive : 0 < ofBytes (self.rest.take 4)
  · refine Or.inl ⟨⟨_, positive, fits⟩, ?_, ?_⟩
    · rw [dif_pos ⟨positive, fits⟩]
      rfl
    · rw [bytesOf_eq length, Decoder.rest_advance, List.take_append_drop]
  · rw [dif_neg (fun both => positive both.1)]
    exact Or.inr rfl

theorem decodeId_front (h : self.Sound) {kind : IdKind} (bound : kind.bound = 2 ^ 32) {id : Id kind}
    {tail : List Byte} (front : self.rest = bytesOf 4 id.id ++ tail) :
    decodeId kind commandIndex self = .ok id (self.advance 4) := by
  have fits : id.id < 256 ^ 4 := bound ▸ id.fits
  unfold decodeId
  rw [Call.bind_ok (Call.mapErr_ok (Decoder.readNumber_of_rest h fits front)), Id.ofIndex?_eq_some.mpr rfl]
  rfl

theorem decodeId_ok (h : self.Sound) {kind : IdKind} (bound : kind.bound = 2 ^ 32) (enough : 4 ≤ self.rest.length) :
    ∃ id : Id kind, decodeId kind commandIndex self = .ok id (self.advance 4) ∧
      self.rest = bytesOf 4 id.id ++ (self.advance 4).rest := by
  have length : (self.rest.take 4).length = 4 := List.length_take_of_le enough
  have fits : ofBytes (self.rest.take 4) < kind.bound := by
    have := ofBytes_lt (self.rest.take 4)
    rw [length] at this
    rw [bound]
    exact this
  refine ⟨⟨_, fits⟩, ?_, ?_⟩
  · unfold decodeId
    rw [Call.bind_ok (Call.mapErr_ok (Decoder.readNumber_ok h enough)), Id.ofIndex?, dif_pos fits]
    rfl
  · rw [bytesOf_eq length, Decoder.rest_advance, List.take_append_drop]

/-- A payload decodes to its command. -/
theorem decodeWorldCommand_front (h : self.Sound) (command : RawCommand) {tail : List Byte}
    (front : self.rest = payloadOf command ++ tail) :
    decodeWorldCommand (tagOf command) commandIndex commandOffset self =
      .ok command (self.advance (payloadOf command).length) := by
  have four := length_bytesOf 4
  cases command with
  | addWire wire =>
    simp only [decodeWorldCommand, tagOf, addWireTag]
    rw [Call.bind_ok (decodeNonZeroId_front h front)]
    simp [payloadOf]
  | removeWire wire =>
    simp only [decodeWorldCommand, tagOf, removeWireTag]
    rw [Call.bind_ok (decodeNonZeroId_front h front)]
    simp [payloadOf]
  | connectWires wireA wireB =>
    rw [payloadOf, List.append_assoc] at front
    have h1 := sound_after h front (four _)
    simp only [decodeWorldCommand, tagOf, connectWiresTag]
    rw [Call.bind_ok (decodeNonZeroId_front h front), Call.bind_ok (decodeNonZeroId_front h1 (rest_after front (four _)))]
    simp [payloadOf, Decoder.advance_advance]
  | disconnectWires wireA wireB =>
    rw [payloadOf, List.append_assoc] at front
    have h1 := sound_after h front (four _)
    simp only [decodeWorldCommand, tagOf, disconnectWiresTag]
    rw [Call.bind_ok (decodeNonZeroId_front h front), Call.bind_ok (decodeNonZeroId_front h1 (rest_after front (four _)))]
    simp [payloadOf, Decoder.advance_advance]
  | addDevice device definition =>
    rw [payloadOf, List.append_assoc] at front
    have h1 := sound_after h front (four _)
    simp only [decodeWorldCommand, tagOf, addDeviceTag]
    rw [Call.bind_ok (decodeNonZeroId_front h front),
      Call.bind_ok (decodeNonZeroId_front h1 (rest_after front (four _)))]
    simp [payloadOf, Decoder.advance_advance]
  | removeDevice device =>
    simp only [decodeWorldCommand, tagOf, removeDeviceTag]
    rw [Call.bind_ok (decodeNonZeroId_front h front)]
    simp [payloadOf]
  | attachTerminal wire device terminal =>
    rw [payloadOf, List.append_assoc, List.append_assoc] at front
    have h1 := sound_after h front (four _)
    have front1 := rest_after front (four _)
    have h2 := sound_after h1 front1 (four _)
    simp only [decodeWorldCommand, tagOf, attachTerminalTag]
    rw [Call.bind_ok (decodeNonZeroId_front h front),
      Call.bind_ok (decodeNonZeroId_front h1 front1), Call.bind_ok (decodeId_front h2 rfl (rest_after front1 (four _)))]
    simp [payloadOf, Decoder.advance_advance]
  | detachTerminal wire device terminal =>
    rw [payloadOf, List.append_assoc, List.append_assoc] at front
    have h1 := sound_after h front (four _)
    have front1 := rest_after front (four _)
    have h2 := sound_after h1 front1 (four _)
    simp only [decodeWorldCommand, tagOf, detachTerminalTag]
    rw [Call.bind_ok (decodeNonZeroId_front h front), Call.bind_ok (decodeNonZeroId_front h1 front1),
      Call.bind_ok (decodeId_front h2 rfl (rest_after front1 (four _)))]
    simp [payloadOf, Decoder.advance_advance]
  | setDeviceParameter device parameter value =>
    rw [payloadOf, List.append_assoc, List.append_assoc] at front
    have h1 := sound_after h front (four _)
    have front1 := rest_after front (four _)
    have h2 := sound_after h1 front1 (four _)
    simp only [decodeWorldCommand, tagOf, setDeviceParameterTag]
    rw [Call.bind_ok (decodeNonZeroId_front h front), Call.bind_ok (decodeId_front h1 rfl front1),
      Call.bind_ok (Call.mapErr_ok (readF64_front h2 (rest_after front1 (four _))))]
    simp [payloadOf, Decoder.advance_advance]

/-! ### Payloads of the right length -/

/-- The decoding failed on an id that is zero. -/
def FailsOnId {α : Type} (self : Decoder) (commandIndex length : Nat)
    (outcome : Outcome Decoder WorldCommandError α) : Prop :=
  ∃ k after, k ≤ length ∧ outcome = .err (.new .invalidId commandIndex (self.offset + k)) after

theorem one_id (h : self.Sound) (length : self.rest.length = 4) (make : NonZeroId kind → RawCommand) :
    let outcome := (do let a ← decodeNonZeroId kind commandIndex; pure (make a) : Decode RawCommand) self
    (∃ a, outcome = .ok (make a) (self.advance 4) ∧ self.rest = bytesOf 4 a.get) ∨
      FailsOnId self commandIndex 4 outcome := by
  rcases @decodeNonZeroId_cases self kind commandIndex h (by omega) with ⟨a, run, front⟩ | fails
  · refine Or.inl ⟨a, Call.bind_ok run, ?_⟩
    rw [front, Decoder.rest_advance, List.drop_of_length_le (by omega), List.append_nil]
  · exact Or.inr ⟨0, _, by omega, Call.bind_err fails⟩

theorem two_ids (h : self.Sound) (length : self.rest.length = 8) {kind' : NonZeroIdKind}
    (make : NonZeroId kind → NonZeroId kind' → RawCommand) :
    let outcome := (do
      let a ← decodeNonZeroId kind commandIndex
      let b ← decodeNonZeroId kind' commandIndex
      pure (make a b) : Decode RawCommand) self
    (∃ a b, outcome = .ok (make a b) (self.advance 8) ∧ self.rest = bytesOf 4 a.get ++ bytesOf 4 b.get) ∨
      FailsOnId self commandIndex 8 outcome := by
  rcases @decodeNonZeroId_cases self kind commandIndex h (by omega) with ⟨a, run, front⟩ | fails
  · have length1 : (self.advance 4).rest.length = 4 := by rw [Decoder.rest_advance, List.length_drop, length]
    dsimp only
    rw [Call.bind_ok run]
    rcases @one_id _ _ commandIndex (h.advance (by omega)) length1 (make a) with
      ⟨b, run', front'⟩ | ⟨k, after, le, fails⟩
    · refine Or.inl ⟨a, b, ?_, by rw [front, front']⟩
      rw [run', Decoder.advance_advance]
    · refine Or.inr ⟨4 + k, after, by omega, ?_⟩
      rw [fails]
      simp only [Decoder.offset, Decoder.advance, Nat.add_assoc]
  · exact Or.inr ⟨0, _, by omega, Call.bind_err fails⟩

theorem two_ids_index (h : self.Sound) (length : self.rest.length = 12)
    (make : WireId → DeviceId → TerminalId → RawCommand) :
    let outcome := (do
      let a ← decodeNonZeroId .wire commandIndex
      let b ← decodeNonZeroId .device commandIndex
      let c ← decodeId .terminal commandIndex
      pure (make a b c) : Decode RawCommand) self
    (∃ a b c, outcome = .ok (make a b c) (self.advance 12) ∧
        self.rest = bytesOf 4 a.get ++ (bytesOf 4 b.get ++ bytesOf 4 c.id)) ∨
      FailsOnId self commandIndex 12 outcome := by
  rcases @decodeNonZeroId_cases self .wire commandIndex h (by omega) with ⟨a, run, front⟩ | fails
  · have length1 : (self.advance 4).rest.length = 8 := by rw [Decoder.rest_advance, List.length_drop, length]
    have h1 : (self.advance 4).Sound := h.advance (by omega)
    dsimp only
    rw [Call.bind_ok run]
    rcases @decodeNonZeroId_cases (self.advance 4) .device commandIndex h1 (by omega) with
      ⟨b, run', front'⟩ | fails
    · have length2 : ((self.advance 4).advance 4).rest.length = 4 := by
        rw [Decoder.rest_advance, List.length_drop, length1]
      obtain ⟨c, run'', front''⟩ := @decodeId_ok ((self.advance 4).advance 4) commandIndex (h1.advance (by omega)) .terminal rfl (by omega)
      refine Or.inl ⟨a, b, c, ?_, ?_⟩
      · rw [Call.bind_ok run', Call.bind_ok run'', Decoder.advance_advance, Decoder.advance_advance]
        rfl
      · rw [front, front', front'', Decoder.rest_advance ((self.advance 4).advance 4),
          List.drop_of_length_le (by omega), List.append_nil]
    · exact Or.inr ⟨4, _, by omega, Call.bind_err fails⟩
  · exact Or.inr ⟨0, _, by omega, Call.bind_err fails⟩

theorem id_index_value (h : self.Sound) (length : self.rest.length = 16)
    (make : DeviceId → ParameterId → BitVec 64 → RawCommand) :
    let outcome := (do
      let a ← decodeNonZeroId .device commandIndex
      let b ← decodeId .parameter commandIndex
      let c ← Call.mapErr (truncated · commandIndex) Decoder.readF64
      pure (make a b c) : Decode RawCommand) self
    (∃ a b c, outcome = .ok (make a b c) (self.advance 16) ∧
        self.rest = bytesOf 4 a.get ++ (bytesOf 4 b.id ++ bytesOf 8 c.toNat)) ∨
      FailsOnId self commandIndex 16 outcome := by
  rcases @decodeNonZeroId_cases self .device commandIndex h (by omega) with ⟨a, run, front⟩ | fails
  · have length1 : (self.advance 4).rest.length = 12 := by rw [Decoder.rest_advance, List.length_drop, length]
    have h1 : (self.advance 4).Sound := h.advance (by omega)
    dsimp only
    rw [Call.bind_ok run]
    obtain ⟨b, run', front'⟩ := @decodeId_ok _ commandIndex h1 .parameter rfl (by omega)
    have length2 : ((self.advance 4).advance 4).rest.length = 8 := by
      rw [Decoder.rest_advance, List.length_drop, length1]
    obtain ⟨c, run'', front''⟩ := @readF64_ok ((self.advance 4).advance 4) (h1.advance (by omega)) (by omega)
    refine Or.inl ⟨a, b, c, ?_, ?_⟩
    · rw [Call.bind_ok run', Call.bind_ok (Call.mapErr_ok run''), Decoder.advance_advance, Decoder.advance_advance]
      rfl
    · rw [front, front', front'', Decoder.rest_advance ((self.advance 4).advance 4),
        List.drop_of_length_le (by omega), List.append_nil]
  · exact Or.inr ⟨0, _, by omega, Call.bind_err fails⟩

/-- A payload of the expected length is the payload of a command, or has an id that is zero. -/
theorem decodeWorldCommand_cases (h : self.Sound) {tag length : Nat}
    (expected : expectedWorldPayloadLength tag = some length) (fits : self.rest.length = length) :
    (∃ command, decodeWorldCommand tag commandIndex commandOffset self = .ok command (self.advance length) ∧
        tagOf command = tag ∧ self.rest = payloadOf command) ∨
      FailsOnId self commandIndex length (decodeWorldCommand tag commandIndex commandOffset self) := by
  unfold expectedWorldPayloadLength at expected
  split at expected
  case h_10 => exact absurd expected nofun
  all_goals
    obtain rfl := Option.some.inj expected
    simp only [decodeWorldCommand]
  case h_1 =>
    rcases @one_id _ _ commandIndex h fits (.addWire ·) with ⟨a, run, front⟩ | fails
    · exact Or.inl ⟨_, run, rfl, front⟩
    · exact Or.inr fails
  case h_2 =>
    rcases @one_id _ _ commandIndex h fits (.removeWire ·) with ⟨a, run, front⟩ | fails
    · exact Or.inl ⟨_, run, rfl, front⟩
    · exact Or.inr fails
  case h_3 =>
    rcases @one_id _ _ commandIndex h fits (.removeDevice ·) with ⟨a, run, front⟩ | fails
    · exact Or.inl ⟨_, run, rfl, front⟩
    · exact Or.inr fails
  case h_4 =>
    rcases @two_ids _ _ commandIndex h fits _ (.connectWires · ·) with ⟨a, b, run, front⟩ | fails
    · exact Or.inl ⟨_, run, rfl, front⟩
    · exact Or.inr fails
  case h_5 =>
    rcases @two_ids _ _ commandIndex h fits _ (.disconnectWires · ·) with ⟨a, b, run, front⟩ | fails
    · exact Or.inl ⟨_, run, rfl, front⟩
    · exact Or.inr fails
  case h_6 =>
    rcases @two_ids _ _ commandIndex h fits _ (.addDevice · ·) with ⟨a, b, run, front⟩ | fails
    · exact Or.inl ⟨_, run, rfl, front⟩
    · exact Or.inr fails
  case h_7 =>
    rcases @two_ids_index _ commandIndex h fits (.attachTerminal · · ·) with
      ⟨a, b, c, run, front⟩ | fails
    · exact Or.inl ⟨_, run, rfl, front⟩
    · exact Or.inr fails
  case h_8 =>
    rcases @two_ids_index _ commandIndex h fits (.detachTerminal · · ·) with
      ⟨a, b, c, run, front⟩ | fails
    · exact Or.inl ⟨_, run, rfl, front⟩
    · exact Or.inr fails
  case h_9 =>
    rcases @id_index_value _ commandIndex h fits (.setDeviceParameter · · ·) with
      ⟨a, b, c, run, front⟩ | fails
    · exact Or.inl ⟨_, run, rfl, front⟩
    · exact Or.inr fails

end Payload

/-! ### Frames -/

/-- Errors of the format, as opposed to those of the world. -/
def isFraming : WorldCommandErrorKind → Bool
  | .invalidMagic | .unsupportedVersion | .invalidFlags | .invalidReserved | .truncatedInput | .unknownCommand
  | .invalidCommandLength | .invalidId | .trailingBytes => true
  | _ => false

/-- Errors of a frame. -/
def isFrameError : WorldCommandErrorKind → Bool
  | .truncatedInput | .unknownCommand | .invalidCommandLength | .invalidId => true
  | _ => false

section Frame

variable {self : Decoder} {commandIndex : Nat}

theorem decodeFrame_front (h : self.Sound) (command : RawCommand) {tail : List Byte}
    (front : self.rest = encodeCommand command ++ tail) :
    decodeFrame commandIndex self = .ok (command, self.offset) (self.advance (encodeCommand command).length) := by
  rw [encodeCommand, List.append_assoc, List.append_assoc] at front
  have small := payload_small command
  have h1 := sound_after h front (length_bytesOf 2 _)
  have front1 := rest_after front (length_bytesOf 2 _)
  have h2 := sound_after h1 front1 (length_bytesOf 4 _)
  have front2 := rest_after front1 (length_bytesOf 4 _)
  have enough : (payloadOf command).length ≤ ((self.advance 2).advance 4).rest.length := by
    rw [front2, List.length_append]
    omega
  have taken : ((self.advance 2).advance 4).rest.take (payloadOf command).length = payloadOf command := by
    rw [front2, List.take_left]
  unfold decodeFrame
  rw [Call.get_bind]
  dsimp only
  rw [Call.bind_ok (Call.mapErr_ok (Decoder.readNumber_of_rest h (tag_small command) front)),
    Call.bind_ok (Call.mapErr_ok (Decoder.readNumber_of_rest h1 (by omega) front1)), expected_tagOf,
    Call.okOr_some_bind, Call.rejectIf_bind_neg (fun differ => differ rfl), Call.get_bind,
    Call.bind_ok (Call.mapErr_ok (Decoder.readBytes_ok h2 enough)), taken]
  have inner : ∀ offset commandOffset, (do
      let command ← decodeWorldCommand (tagOf command) commandIndex commandOffset
      let self ← Call.get
      let empty ← Call.expect self.isEmpty
      pure (command, empty) : Decode (RawCommand × Bool)) (Decoder.new (payloadOf command) offset) =
      .ok (command, true) ((Decoder.new (payloadOf command) offset).advance (payloadOf command).length) := by
    intro offset commandOffset
    have sound := Decoder.sound_new (payloadOf command) offset
    have all : (Decoder.new (payloadOf command) offset).rest = payloadOf command ++ [] := by
      rw [Decoder.rest_new, List.append_nil]
    rw [Call.bind_ok (decodeWorldCommand_front sound command all), Call.get_bind,
      (sound_after sound all rfl).isEmpty, rest_after all rfl]
    rfl
  rw [Call.bind_ok (Decoder.within_ok (inner _ _))]
  dsimp only
  rw [Call.rejectIf_bind_neg (by decide), Decoder.advance_advance, Decoder.advance_advance]
  rw [Call.pure_apply, length_encodeCommand, Nat.add_comm 4, Nat.add_comm 2, Nat.add_assoc, Nat.add_comm 6]

/-- What is left starts with a frame, or the format is broken. -/
theorem decodeFrame_cases (h : self.Sound) (commandIndex : Nat) :
    (∃ command tail, self.rest = encodeCommand command ++ tail) ∨
      ∃ kind offset after, decodeFrame commandIndex self = .err (.new kind commandIndex offset) after ∧
        isFrameError kind = true ∧ offset ≤ self.baseOffset + self.input.length ∧
        ∀ command tail, self.rest ≠ encodeCommand command ++ tail := by
  by_cases framed : ∃ command tail, self.rest = encodeCommand command ++ tail
  · exact Or.inl framed
  · refine Or.inr ?_
    have none' : ∀ command tail, self.rest ≠ encodeCommand command ++ tail := by
      intro command tail front
      exact framed ⟨command, tail, front⟩
    have here : self.offset ≤ self.baseOffset + self.input.length := Nat.add_le_add_left h _
    unfold decodeFrame
    rw [Call.get_bind]
    dsimp only
    by_cases tagged : 2 ≤ self.rest.length
    swap
    · exact ⟨.truncatedInput, _, _, Call.bind_err (Call.mapErr_err (Decoder.readNumber_short h (by omega))), rfl,
        le_refl _, none'⟩
    have h1 := h.advance tagged
    rw [Call.bind_ok (Call.mapErr_ok (Decoder.readNumber_ok h tagged))]
    by_cases lengthed : 4 ≤ (self.advance 2).rest.length
    swap
    · exact ⟨.truncatedInput, _, _, Call.bind_err (Call.mapErr_err (Decoder.readNumber_short h1 (by omega))), rfl,
        le_refl _, none'⟩
    have h2 := h1.advance lengthed
    rw [Call.bind_ok (Call.mapErr_ok (Decoder.readNumber_ok h1 lengthed))]
    have isTag : bytesOf 2 (ofBytes (self.rest.take 2)) = self.rest.take 2 := bytesOf_eq (List.length_take_of_le tagged)
    have isLength : bytesOf 4 (ofBytes ((self.advance 2).rest.take 4)) = (self.advance 2).rest.take 4 :=
      bytesOf_eq (List.length_take_of_le lengthed)
    generalize ofBytes (self.rest.take 2) = tag at isTag
    generalize ofBytes ((self.advance 2).rest.take 4) = payloadLength at isLength
    cases expected : expectedWorldPayloadLength tag with
    | none => exact ⟨.unknownCommand, _, _, Call.okOr_none_bind _, rfl, here, none'⟩
    | some length =>
      rw [Call.okOr_some_bind]
      by_cases same : payloadLength = length
      swap
      · exact ⟨.invalidCommandLength, _, _, Call.rejectIf_bind_pos same _, rfl, here, none'⟩
      subst same
      rw [Call.rejectIf_bind_neg (fun differ => differ rfl), Call.get_bind]
      by_cases enough : payloadLength ≤ ((self.advance 2).advance 4).rest.length
      swap
      · exact ⟨.truncatedInput, _, _, Call.bind_err (Call.mapErr_err (Decoder.readBytes_short h2 (by omega))), rfl,
          le_refl _, none'⟩
      rw [Call.bind_ok (Call.mapErr_ok (Decoder.readBytes_ok h2 enough))]
      have fits : (((self.advance 2).advance 4).rest.take payloadLength).length = payloadLength :=
        List.length_take_of_le enough
      have sound := Decoder.sound_new (((self.advance 2).advance 4).rest.take payloadLength)
        ((self.advance 2).advance 4).offset
      rcases @decodeWorldCommand_cases _ commandIndex self.offset sound tag payloadLength expected fits with
        ⟨command, -, rfl, payload⟩ | ⟨k, after, le, fails⟩
      · -- a frame would be at the front after all
        refine absurd ?_ (none' command (((self.advance 2).advance 4).rest.drop payloadLength))
        rw [Decoder.rest_new] at payload
        rw [encodeCommand, ← payload, fits, List.append_assoc, List.append_assoc, List.take_append_drop, isLength,
          isTag, Decoder.rest_advance (self.advance 2), List.take_append_drop, Decoder.rest_advance,
          List.take_append_drop]
      · refine ⟨.invalidId, _, _, Call.bind_err (Decoder.within_err (Call.bind_err fails)), rfl, ?_, none'⟩
        have bound := h2
        rw [Decoder.length_rest] at enough
        simp only [Decoder.offset, Decoder.new, Decoder.advance, Decoder.Sound] at bound enough ⊢
        omega

/-! ### The header -/

theorem length_encodeHeader (count : Nat) : (encodeHeader count).length = 16 := by
  simp [encodeHeader, worldCommandBufferMagic]

theorem decodeHeader_parses (h : self.Sound) :
    Decoder.Parses self (fun error => ∃ kind offset, error = .header kind offset ∧ offset ≤ self.limit) decodeHeader
      (· < 2 ^ 32) encodeHeader id :=
  Decoder.readHeader_parses h rfl (by decide) (fun offset inside => ⟨_, offset, rfl, inside⟩)
    fun _ offset inside => ⟨_, offset, rfl, inside⟩

theorem decodeHeader_front (h : self.Sound) {count : Nat} (fits : count < 2 ^ 32) {tail : List Byte}
    (front : self.rest = encodeHeader count ++ tail) : decodeHeader self = .ok count (self.advance 16) :=
  length_encodeHeader count ▸ (decodeHeader_parses h).front count tail fits front

end Frame

end WorldCommands

end Hynergy
