import Hynergy.Protocol.DefinitionFormat

/-!
# Frames of definition buffers

The commands of a definition buffer in their frames, and its header.
-/

namespace Hynergy

open Lib

namespace DefinitionCommands

open Decoder (Parses parses_bytes parses_number sound_after rest_after rest_new length_rest)

variable {F : Type} {fromBits : BitVec 64 → F} {self : Decoder} {commandIndex limit : Nat}

/-! ### Commands -/

/-- The parts of an operation have lengths that fit. -/
def OperationFits : RawOperation → Prop
  | .addElement element => ElementFits element
  | _ => True

theorem tag_le (operation : RawOperation) : tagOf operation ≤ 6 := by
  cases operation <;> (simp only [tagOf]; decide)

section Commands

variable (sound : self.Sound) (below : self.limit ≤ limit)

include sound below

theorem twoIds_parses {first second : IdKind} (bound : first.bound = 2 ^ 32) (bound' : second.bound = 2 ^ 32)
    (make : Id first → Id second → DeviceDefinitionBuilder.Operation F) :
    Parses self (Located commandIndex limit)
      (readId first commandIndex >>= fun a => readId second commandIndex >>= fun b => pure (make a b))
      (fun _ : Id first × Id second => True) (fun p => encodeId p.1 ++ encodeId p.2) fun p => make p.1 p.2 := by
  refine ((readId_parses sound below bound).bind sound (fun _ (_ : Id second) => True) (fun _ => encodeId) make
    fun a tail _ _ sound' => ?_).image id (fun p _ => ⟨trivial, rfl, rfl⟩) fun p _ => ⟨p, ⟨trivial, trivial⟩, rfl⟩
  exact (readId_parses sound' below bound').map (make a)

theorem decodePayload_parses {tag commandOffset : Nat} (inside : commandOffset ≤ limit) :
    Parses self (Located commandIndex limit) (decodePayload fromBits tag commandIndex commandOffset)
      (fun operation => tagOf operation = tag ∧ OperationFits operation) payloadOf
      (DeviceDefinitionBuilder.Operation.map fromBits) := by
  match tag with
  | 1 =>
    refine (Parses.pure (DeviceDefinitionBuilder.Operation.addTerminal (F := F))).image
      (fun _ => .addTerminal) (fun _ _ => ⟨⟨rfl, trivial⟩, rfl, rfl⟩) ?_
    rintro operation ⟨same, -⟩
    cases operation <;> first | exact ⟨(), trivial, rfl⟩ | cases same
  | 2 =>
    refine (Parses.pure (DeviceDefinitionBuilder.Operation.addNode (F := F))).image
      (fun _ => .addNode) (fun _ _ => ⟨⟨rfl, trivial⟩, rfl, rfl⟩) ?_
    rintro operation ⟨same, -⟩
    cases operation <;> first | exact ⟨(), trivial, rfl⟩ | cases same
  | 3 =>
    refine ((decodeConstraints_parses sound below).map DeviceDefinitionBuilder.Operation.addParameter).image
      .addParameter (fun _ _ => ⟨⟨rfl, trivial⟩, rfl, rfl⟩) ?_
    rintro operation ⟨same, -⟩
    cases operation <;> first | exact ⟨_, trivial, rfl⟩ | cases same
  | 4 =>
    refine ((decodeElement_parses sound below).map DeviceDefinitionBuilder.Operation.addElement).image
      .addElement (fun _ fits => ⟨⟨rfl, fits⟩, rfl, rfl⟩) ?_
    rintro operation ⟨same, fits⟩
    cases operation <;> first | exact ⟨_, fits, rfl⟩ | cases same
  | 5 =>
    refine (twoIds_parses sound below rfl rfl .addVoltageObserver).image
      (fun p => .addVoltageObserver p.1 p.2) (fun _ _ => ⟨⟨rfl, trivial⟩, rfl, rfl⟩) ?_
    rintro operation ⟨same, -⟩
    cases operation <;> first | exact ⟨(_, _), trivial, rfl⟩ | cases same
  | 6 =>
    refine (twoIds_parses sound below rfl rfl .addChildObserver).image
      (fun p => .addChildObserver p.1 p.2) (fun _ _ => ⟨⟨rfl, trivial⟩, rfl, rfl⟩) ?_
    rintro operation ⟨same, -⟩
    cases operation <;> first | exact ⟨(_, _), trivial, rfl⟩ | cases same
  | 0 =>
    refine .fails rfl ⟨_, _, rfl, inside⟩ fun operation isFine => ?_
    cases operation <;> cases isFine.1
  | n + 7 =>
    refine .fails rfl ⟨_, _, rfl, inside⟩ fun operation isFine => ?_
    exact absurd (isFine.1 ▸ tag_le operation) (by omega)

end Commands

/-- An operation in its frame fits. -/
def FrameFits (operation : RawOperation) : Prop :=
  OperationFits operation ∧ (payloadOf operation).length < 2 ^ 32

/-- The payload of a command is used up. -/
theorem payload_parses {tag commandOffset : Nat} (inside : commandOffset ≤ limit) (payload : List Byte) {baseOffset : Nat}
    (below : baseOffset + payload.length ≤ limit) (outer : Decoder) :
    Parses outer (Located commandIndex limit)
      (Decoder.within (Decoder.new payload baseOffset) do
        let operation ← decodePayload fromBits tag commandIndex commandOffset
        let self ← Call.get
        let empty ← Call.expect self.isEmpty
        Call.rejectIf (empty = false) (.new .invalidCommandLength commandIndex commandOffset)
        pure operation)
      (fun operation => tagOf operation = tag ∧ OperationFits operation ∧ payloadOf operation = payload) (fun _ => [])
      (DeviceDefinitionBuilder.Operation.map fromBits) := by
  have parses : Parses (Decoder.new payload baseOffset) (Located commandIndex limit)
      (decodePayload fromBits tag commandIndex commandOffset)
      (fun operation => tagOf operation = tag ∧ OperationFits operation) payloadOf
      (DeviceDefinitionBuilder.Operation.map fromBits) :=
    decodePayload_parses (Decoder.sound_new payload baseOffset) below inside
  generalize decodePayload fromBits tag commandIndex commandOffset = call at parses
  have sound (operation : RawOperation) {tail : List Byte} (front : payload = payloadOf operation ++ tail) :
      ((Decoder.new payload baseOffset).advance (payloadOf operation).length).isEmpty = some (tail.length == 0) := by
    have isSound := sound_after (Decoder.sound_new payload baseOffset) front rfl
    have left : ((Decoder.new payload baseOffset).advance (payloadOf operation).length).rest = tail := rest_after front rfl
    rw [isSound.isEmpty, left]
  constructor
  · rintro operation rest ⟨same, fits, rfl⟩ -
    have run := parses.front operation [] ⟨same, fits⟩ (List.append_nil _).symm
    refine Decoder.within_ok (show _ = Outcome.ok _ ((Decoder.new (payloadOf operation) baseOffset).advance
      (payloadOf operation).length) from (Call.bind_ok run).trans ?_)
    rw [Call.get_bind, sound operation (List.append_nil _).symm, Call.expect_some_bind]
    rfl
  · rcases parses.cases with ⟨operation, tail, ⟨same, fits⟩, front⟩ | ⟨error, after, failed, isBad⟩
    · have run := parses.front operation tail ⟨same, fits⟩ front
      have empty := sound operation front
      cases tail with
      | nil =>
        rw [rest_new, List.append_nil] at front
        exact Or.inl ⟨operation, outer.rest, ⟨same, fits, front.symm⟩, rfl⟩
      | cons byte tail =>
        refine Or.inr ⟨.new .invalidCommandLength commandIndex commandOffset, outer, Decoder.within_err (show _ = Outcome.err _
          ((Decoder.new payload baseOffset).advance (payloadOf operation).length) from (Call.bind_ok run).trans ?_),
          _, _, rfl, inside⟩
        rw [Call.get_bind, empty, Call.expect_some_bind]
        exact Call.rejectIf_bind_pos rfl _
    · exact Or.inr ⟨_, _, Decoder.within_err (Call.bind_err failed), isBad⟩

variable (fromBits commandIndex) in
/-- A command is parsed to its operation, with the offset of its frame. -/
theorem decodeCommand_parses (sound : self.Sound) (below : self.limit ≤ limit) :
    Parses self (Located commandIndex limit) (decodeCommand fromBits commandIndex) FrameFits encodeOperation
      fun operation => (operation.map fromBits, self.offset) := by
  unfold decodeCommand
  refine .get_bind ?_
  refine ((number_parses sound below 2).bind sound
    (fun tag (operation : RawOperation) => tagOf operation = tag ∧ FrameFits operation)
    (fun _ operation => bytesOf 4 (payloadOf operation).length ++ payloadOf operation)
    (fun _ operation => (operation.map fromBits, self.offset)) fun tag tail _ _ sound' => ?_).image Prod.snd ?_ ?_
  · have inside := sound.offset_le.trans below
    have below' : (self.advance (bytesOf 2 tag).length).limit ≤ limit := below
    generalize self.advance (bytesOf 2 tag).length = after at sound' below'
    refine ((number_parses sound' below' 4).bind sound'
      (fun length (operation : RawOperation) =>
        tagOf operation = tag ∧ OperationFits operation ∧ (payloadOf operation).length = length)
      (fun _ operation => payloadOf operation) (fun _ operation => (operation.map fromBits, self.offset))
      fun length tail _ _ sound' => .get_bind ?_).image Prod.snd ?_ ?_
    · have below' : (after.advance (bytesOf 4 length).length).limit ≤ limit := below'
      generalize after.advance (bytesOf 4 length).length = after at sound' below'
      refine ((parses_bytes sound' (located_truncated below') length).bind sound'
        (fun payload (operation : RawOperation) =>
          tagOf operation = tag ∧ OperationFits operation ∧ payloadOf operation = payload)
        (fun _ _ => []) (fun _ operation => (operation.map fromBits, self.offset))
        fun payload tail long front _ => ?_).image Prod.snd ?_ ?_
      · have bound : after.offset + payload.length ≤ limit := by
          have total := congrArg List.length front
          have inside : after.position ≤ after.input.length := sound'
          rw [length_rest, List.length_append, id] at total
          unfold Decoder.limit at below'
          unfold Decoder.offset
          omega
        exact (payload_parses inside payload bound _).map fun operation => (operation, self.offset)
      · rintro ⟨payload, operation⟩ ⟨long, same, fits, is⟩
        obtain rfl : payloadOf operation = payload := is
        exact ⟨⟨same, fits, long⟩, (List.append_nil _).symm, rfl⟩
      · rintro operation ⟨same, fits, long⟩
        exact ⟨(payloadOf operation, operation), ⟨long, same, fits, rfl⟩, rfl⟩
    · rintro ⟨length, operation⟩ ⟨small, same, fits, long⟩
      obtain rfl : (payloadOf operation).length = length := long
      exact ⟨⟨same, fits, small⟩, rfl, rfl⟩
    · rintro operation ⟨same, fits, small⟩
      exact ⟨((payloadOf operation).length, operation), ⟨small, same, fits, rfl⟩, rfl⟩
  · rintro ⟨tag, operation⟩ ⟨-, same, fits⟩
    obtain rfl : tagOf operation = tag := same
    exact ⟨fits, rfl, rfl⟩
  · intro operation fits
    have small : tagOf operation < 256 ^ 2 := Nat.lt_of_le_of_lt (tag_le operation) (by decide)
    exact ⟨(tagOf operation, operation), ⟨small, rfl, fits⟩, rfl⟩

/-! ### The header -/

/-- An error of the header, at an offset inside the input. -/
def HeaderError (limit : Nat) (error : DefinitionRegistrationError) : Prop :=
  ∃ kind offset, error = .header kind offset ∧ offset ≤ limit

theorem decodeHeader_parses (sound : self.Sound) (below : self.limit ≤ limit) :
    Parses self (HeaderError limit) decodeHeader (· < 2 ^ 32) encodeHeader id :=
  Decoder.readHeader_parses sound rfl (by decide) (fun offset inside => ⟨_, offset, rfl, inside.trans below⟩)
    fun _ offset inside => ⟨_, offset, rfl, inside.trans below⟩

/-! ### Lengths -/

theorem elementFits_of_length {element : Element (BitVec 64)} (short : (encodeElement element).length < 2 ^ 32) :
    ElementFits element := by
  have terminals : element.terminals.length * 4 ≤ (element.terminals.flatMap encodeId).length :=
    Parses.flatMap_length (fun _ (_ : True) => Nat.le_of_eq (length_bytesOf 4 _).symm) fun _ _ => trivial
  have parameters : element.parameters.length * 5 ≤ (element.parameters.flatMap encodeValue).length :=
    Parses.flatMap_length (fun value (_ : True) => length_encodeValue value) fun _ _ => trivial
  simp only [encodeElement, encodeList, List.length_append] at short
  exact ⟨by omega, by omega⟩

theorem length_encodeOperation (operation : RawOperation) :
    (encodeOperation operation).length = 6 + (payloadOf operation).length := by
  rw [encodeOperation, List.length_append, List.length_append, length_bytesOf, length_bytesOf]
  omega

/-- A command in a short input fits. -/
theorem frameFits_of_length {operation : RawOperation} (short : (encodeOperation operation).length < 2 ^ 32) :
    FrameFits operation := by
  rw [length_encodeOperation] at short
  refine ⟨?_, by omega⟩
  cases operation with
  | addElement element => exact elementFits_of_length (Nat.lt_of_le_of_lt (Nat.le_add_left _ 6) short)
  | _ => trivial

theorem framesFit_of_length {operations : List RawOperation} (short : (encodeOperations operations).length < 2 ^ 32) :
    ∀ operation ∈ operations, FrameFits operation := by
  intro operation member
  obtain ⟨before, after, rfl⟩ := List.append_of_mem member
  refine frameFits_of_length (Nat.lt_of_le_of_lt ?_ short)
  simp only [encodeOperations, List.flatMap_append, List.flatMap_cons, List.length_append]
  omega

theorem count_of_length {operations : List RawOperation} (short : (encodeOperations operations).length < 2 ^ 32) :
    operations.length < 2 ^ 32 := by
  have each : ∀ operation : RawOperation, True → 6 ≤ (encodeOperation operation).length := fun operation _ =>
    (length_encodeOperation operation).symm ▸ Nat.le_add_right _ _
  have total : operations.length * 6 ≤ (operations.flatMap encodeOperation).length :=
    Parses.flatMap_length each fun _ _ => trivial
  unfold encodeOperations at short
  omega

end DefinitionCommands

end Hynergy
