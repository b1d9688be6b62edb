import Hynergy.Model.BuilderReturns
import Hynergy.Model.ForwardedParameters
import Hynergy.Protocol.DefinitionFrames
import Hynergy.Protocol.DefinitionGrowth

/-!
# Decoding definition buffers

A buffer decodes to a definition exactly where it encodes calls that build it. Decoding returns on every
input, with its errors inside the input.
-/

namespace Hynergy

open Lib

namespace DefinitionCommands

open Decoder (Parses sound_after rest_after advance_advance)
open DeviceDefinitionBuilder

variable {F : Type} [F64 F] {fromBits : BitVec 64 → F} {limit : Nat}

/-! ### The commands -/

/-- Calls on a builder, one after the other. -/
def replay : List (Operation F) → Build F Unit
  | [] => pure ()
  | operation :: operations => do
    operation.apply
    replay operations

variable {base : DefinitionRegistry F} {decoder : Decoder} {builder after : DeviceDefinitionBuilder F}

omit [F64 F] in
theorem decoding_ok {α : Type} {call : Decode α} {value : α} {decoder' : Decoder} (run : call decoder = .ok value decoder') :
    (decoding call : Building F α) (decoder, builder) = .ok value (decoder', builder) := Call.zoom_ok run

omit [F64 F] in
theorem decoding_err {α : Type} {call : Decode α} {error : DefinitionRegistrationError} {decoder' : Decoder}
    (run : call decoder = .err error decoder') :
    (decoding call : Building F α) (decoder, builder) = .err error (decoder', builder) := Call.zoom_err run

/-- Encoded calls are replayed. -/
theorem buildCommands_front {operations : List RawOperation} (sound : decoder.Sound) {tail : List Byte}
    (fits : ∀ operation ∈ operations, FrameFits operation) (front : decoder.rest = encodeOperations operations ++ tail)
    (run : replay (operations.map (Operation.map fromBits)) builder = .ok () after) (commandIndex : Nat) :
    buildCommands fromBits operations.length commandIndex (decoder, builder) =
      .ok () (decoder.advance (encodeOperations operations).length, after) := by
  induction operations generalizing decoder builder commandIndex with
  | nil =>
    obtain ⟨-, rfl⟩ := Outcome.ok.inj run
    rfl
  | cons operation operations ih =>
    rw [encodeOperations, List.flatMap_cons, List.append_assoc] at front
    have here := (decodeCommand_parses fromBits commandIndex sound (le_refl _)).front
      operation _ (fits operation List.mem_cons_self) front
    obtain ⟨_, between, applied, rest⟩ := Call.bind_eq_ok run
    have next := ih (sound_after sound front rfl) (fun other member => fits other (List.mem_cons_of_mem _ member))
      (rest_after front rfl) rest (commandIndex + 1)
    rw [List.length_cons, buildCommands, Call.bind_ok (decoding_ok here)]
    dsimp only
    rw [Call.bind_ok (Call.zoom_ok applied)]
    refine next.trans ?_
    rw [advance_advance, encodeOperations, encodeOperations, List.flatMap_cons, List.length_append]

variable (fromBits) in
/-- The commands are encoded calls that are replayed, or an error is at one of them. -/
theorem buildCommands_cases (reached : Reached base builder) (sound : decoder.Sound) (below : decoder.limit ≤ limit)
    (remaining commandIndex : Nat) :
    (∃ operations tail after, operations.length = remaining ∧ (∀ operation ∈ operations, FrameFits operation) ∧
      decoder.rest = encodeOperations operations ++ tail ∧
      replay (operations.map (Operation.map fromBits)) builder = .ok () after) ∨
    ∃ error last index, buildCommands fromBits remaining commandIndex (decoder, builder) = .err error last ∧
      Located index limit error ∧ index < commandIndex + remaining := by
  induction remaining generalizing decoder builder commandIndex with
  | zero =>
    exact Or.inl ⟨[], decoder.rest, builder, rfl, fun _ member => absurd member List.not_mem_nil, rfl, rfl⟩
  | succ remaining ih =>
    have parses := decodeCommand_parses fromBits commandIndex sound below
    rw [buildCommands]
    rcases parses.cases with ⟨operation, tail, fits, front⟩ | ⟨error, last, failed, located⟩
    · rw [Call.bind_ok (decoding_ok (parses.front operation tail fits front))]
      dsimp only
      cases applied : (operation.map fromBits).apply builder with
      | ok value between =>
        rw [Call.bind_ok (Call.zoom_ok applied)]
        rcases ih (reached.call _ (Or.inl ⟨value, applied⟩)) (sound_after sound front rfl) below (commandIndex + 1) with
          ⟨operations, tail', after, length, all, front', run⟩ | ⟨error, last, index, failed, located, lt⟩
        · refine Or.inl ⟨operation :: operations, tail', after, congrArg (· + 1) length, ?_, ?_, ?_⟩
          · exact fun other member => (List.mem_cons.mp member).elim (fun same => same ▸ fits) (all other)
          · rw [front, ← rest_after front rfl, front', encodeOperations, encodeOperations, List.flatMap_cons,
              List.append_assoc]
          · exact (Call.bind_ok applied).trans run
        · exact Or.inr ⟨error, last, index, failed, located, by omega⟩
      | err error between =>
        refine Or.inr ⟨_, _, commandIndex, Call.bind_err (Call.zoom_err applied), ?_, by omega⟩
        exact ⟨_, _, rfl, sound.offset_le.trans below⟩
      | panic => exact absurd applied (reached.fits.apply_returns _)
    · exact Or.inr ⟨error, _, commandIndex, Call.bind_err (decoding_err failed), located, by omega⟩

/-! ### The buffer -/

/-- The count of a header. -/
def commandCount (input : List Byte) : Nat := ofBytes ((input.drop 12).take 4)

/-- An error inside the input, at a command or in the header. -/
def Placed (input : List Byte) (error : DefinitionRegistrationError) : Prop :=
  error.byteOffset ≤ input.length ∧ (error.commandIndex = 2 ^ 32 - 1 ∨ error.commandIndex ≤ commandCount input)

/-- Calls on a new builder, then the definition. -/
def build (base : DefinitionRegistry F) (operations : List (Operation F)) :
    Option (Except DeviceDefinitionBuilderError (DeviceDefinition F)) :=
  match replay operations { registry := base } with
  | .ok () builder => builder.buildDefinition
  | .err error _ => some (.error error)
  | .panic => none

variable {input tail : List Byte} {definition : DeviceDefinition F}

omit [F64 F] in
theorem commandCount_encode {count : Nat} (small : count < 2 ^ 32) : commandCount (encodeHeader count ++ tail) = count := by
  have header : encodeHeader count =
      (definitionBufferMagic ++ (bytesOf 2 definitionBufferVersion ++ (bytesOf 2 0 ++ bytesOf 4 0))) ++ bytesOf 4 count := by
    simp only [encodeHeader, List.append_assoc]
  have fits : count < 256 ^ 4 := small
  rw [commandCount, header, List.append_assoc, List.drop_left' (by rfl), List.take_left' (length_bytesOf 4 _),
    ofBytes_bytesOf fits]

omit [F64 F] in
theorem Located.placed {index : Nat} {error : DefinitionRegistrationError} (located : Located index input.length error)
    (inside : index ≤ commandCount input) : Placed input error := by
  obtain ⟨kind, offset, rfl, below⟩ := located
  exact ⟨(Nat.mod_le _ _).trans below, Or.inr inside⟩

omit [F64 F] in
theorem HeaderError.placed {error : DefinitionRegistrationError} (located : HeaderError input.length error) :
    Placed input error := by
  obtain ⟨kind, offset, rfl, below⟩ := located
  exact ⟨(Nat.mod_le _ _).trans below, Or.inl rfl⟩

section Buffer

variable (base input)

theorem header_parses : Parses (Decoder.new input 0) (HeaderError input.length) decodeHeader (· < 2 ^ 32) encodeHeader id :=
  decodeHeader_parses (Decoder.sound_new input 0) (Nat.le_of_eq (Nat.zero_add _))

end Buffer

/-- The commands after a header, up to the check that nothing follows. -/
theorem buildBuffer_header {count : Nat} (small : count < 2 ^ 32)
    (front : (Decoder.new input 0).rest = encodeHeader count ++ tail) :
    buildBuffer fromBits (Decoder.new input 0, builder) =
      (buildCommands fromBits count 0 >>= fun _ => Call.get >>= fun self => Call.expect self.1.isEmpty >>= fun empty =>
        Call.rejectIf (empty = false) (.new .trailingBytes count self.1.offset) >>= fun _ => (pure count : Building F Nat))
        ((Decoder.new input 0).advance (encodeHeader count).length, builder) :=
  Call.bind_ok (decoding_ok ((header_parses input).front count tail small front))

/-- An encoded buffer whose calls are replayed. -/
theorem buildBuffer_front {operations : List RawOperation} (small : operations.length < 2 ^ 32)
    (fits : ∀ operation ∈ operations, FrameFits operation)
    (run : replay (operations.map (Operation.map fromBits)) builder = .ok () after) :
    ∃ decoder, buildBuffer fromBits (Decoder.new (encodeBuffer operations) 0, builder) =
      .ok operations.length (decoder, after) ∧ decoder.offset ≤ (encodeBuffer operations).length := by
  have sound := Decoder.sound_new (encodeBuffer operations) 0
  have front : (Decoder.new (encodeBuffer operations) 0).rest = encodeHeader operations.length ++ encodeOperations operations := rfl
  have sound' := sound_after sound front rfl
  have front' : ((Decoder.new (encodeBuffer operations) 0).advance (encodeHeader operations.length).length).rest =
      encodeOperations operations ++ [] := (rest_after front rfl).trans (List.append_nil _).symm
  have last := sound_after sound' front' rfl
  refine ⟨_, ?_, last.offset_le.trans (Nat.le_of_eq (Nat.zero_add _))⟩
  rw [buildBuffer_header small front, Call.bind_ok (buildCommands_front sound' fits front' run 0), Call.get_bind]
  dsimp only
  rw [last.isEmpty, rest_after front' rfl, Call.expect_some_bind]
  rfl

variable (fromBits) in
/-- The buffer encodes calls that are replayed, or an error is placed in it. -/
theorem buildBuffer_cases (reached : Reached base builder) (input : List Byte) :
    (∃ operations after, input = encodeBuffer operations ∧ operations.length < 2 ^ 32 ∧
      (∀ operation ∈ operations, FrameFits operation) ∧
      replay (operations.map (Operation.map fromBits)) builder = .ok () after) ∨
    ∃ error last, buildBuffer fromBits (Decoder.new input 0, builder) = .err error last ∧ Placed input error := by
  have sound := Decoder.sound_new input 0
  rcases (header_parses input).cases with ⟨count, tail, small, front⟩ | ⟨error, last, failed, located⟩
  · have sound' := sound_after sound front rfl
    have below : ((Decoder.new input 0).advance (encodeHeader count).length).limit ≤ input.length :=
      Nat.le_of_eq (Nat.zero_add _)
    have isCount : commandCount input = count := by
      rw [show input = encodeHeader count ++ tail from front, commandCount_encode small]
    rw [buildBuffer_header small front]
    rcases buildCommands_cases fromBits reached sound' below count 0 with
      ⟨operations, tail', after, rfl, fits, front', run⟩ | ⟨error, last, index, failed, located, lt⟩
    · have isTail : tail = encodeOperations operations ++ tail' := (rest_after front rfl).symm.trans front'
      have last := sound_after sound' front' rfl
      cases tail' with
      | nil =>
        rw [List.append_nil] at isTail
        subst isTail
        exact Or.inl ⟨operations, after, front, small, fits, run⟩
      | cons byte tail' =>
        refine Or.inr ⟨.new .trailingBytes operations.length (((Decoder.new input 0).advance
          (encodeHeader operations.length).length).advance (encodeOperations operations).length).offset,
          (((Decoder.new input 0).advance (encodeHeader operations.length).length).advance
            (encodeOperations operations).length, after), ?_,
          Located.placed ⟨_, _, rfl, last.offset_le.trans below⟩ (Nat.le_of_eq isCount.symm)⟩
        rw [Call.bind_ok (buildCommands_front sound' fits front' run 0), Call.get_bind]
        dsimp only
        rw [last.isEmpty, rest_after front' rfl, Call.expect_some_bind]
        exact Call.rejectIf_bind_pos rfl _
    · exact Or.inr ⟨error, last, Call.bind_err failed, located.placed (by omega)⟩
  · exact Or.inr ⟨error, _, Call.bind_err (decoding_err failed), located.placed⟩

theorem decodeDefinitionBuffer_front (built : base.Reached) {operations : List RawOperation}
    (small : operations.length < 2 ^ 32) (fits : ∀ operation ∈ operations, FrameFits operation)
    (run : replay (operations.map (Operation.map fromBits)) { registry := base } = .ok () after) :
    ∃ result, after.buildDefinition = some result ∧ ∃ offset ≤ (encodeBuffer operations).length,
      decodeDefinitionBuffer base fromBits (encodeBuffer operations) =
        some (result.mapError (mapBuilderError operations.length offset)) := by
  obtain ⟨decoder, decoded, inside⟩ := buildBuffer_front small fits run
  have reached : Reached base after :=
    buildBuffer_reached.leaves (P := fun state => Reached base state.2) .new (Or.inl ⟨_, decoded⟩)
  obtain ⟨result, is⟩ := Option.ne_none_iff_exists'.mp (reached.buildDefinition_returns built)
  refine ⟨result, is, decoder.offset, inside, ?_⟩
  unfold decodeDefinitionBuffer
  rw [decoded]
  dsimp only
  rw [is]
  rfl

omit [F64 F] in
theorem length_encodeHeader (count : Nat) : (encodeHeader count).length = 16 := by
  simp only [encodeHeader, List.length_append, length_bytesOf]
  rfl

/-- Every short encoding of calls that build a definition decodes to it. -/
theorem decodeDefinitionBuffer_encode (built : base.Reached) {operations : List RawOperation}
    (short : (encodeBuffer operations).length < 2 ^ 32)
    (builds : build base (operations.map (Operation.map fromBits)) = some (.ok definition)) :
    decodeDefinitionBuffer base fromBits (encodeBuffer operations) = some (.ok definition) := by
  rw [encodeBuffer, List.length_append] at short
  have shorter : (encodeOperations operations).length < 2 ^ 32 := by omega
  unfold build at builds
  cases run : replay (operations.map (Operation.map fromBits)) { registry := base } with
  | ok value after =>
    rw [run] at builds
    obtain ⟨result, is, offset, -, decoded⟩ := decodeDefinitionBuffer_front built
      (count_of_length shorter) (framesFit_of_length shorter) run
    obtain rfl : result = .ok definition := Option.some.inj (is.symm.trans builds)
    exact decoded
  | err error after =>
    rw [run] at builds
    cases builds
  | panic =>
    rw [run] at builds
    cases builds

variable (fromBits) in
/-- Decoding returns; it returns a definition exactly where the input encodes calls that build it. -/
theorem decodeDefinitionBuffer_spec (built : base.Reached) (input : List Byte) (short : input.length < 2 ^ 32) :
    ∃ result, decodeDefinitionBuffer base fromBits input = some result ∧
      (∀ definition, result = .ok definition ↔ ∃ operations, input = encodeBuffer operations ∧
        build base (operations.map (Operation.map fromBits)) = some (.ok definition)) ∧
      ∀ error, result = .error error → Placed input error := by
  have encoded {result : Except DefinitionRegistrationError (DeviceDefinition F)} {definition : DeviceDefinition F}
      (decoded : decodeDefinitionBuffer base fromBits input = some result)
      (encodes : ∃ operations, input = encodeBuffer operations ∧
        build base (operations.map (Operation.map fromBits)) = some (.ok definition)) : result = .ok definition := by
    obtain ⟨operations, rfl, builds⟩ := encodes
    exact Option.some.inj (decoded.symm.trans (decodeDefinitionBuffer_encode built short builds))
  rcases buildBuffer_cases fromBits (.new : Reached base _) input with
    ⟨operations, after, rfl, small, fits, run⟩ | ⟨error, last, failed, placed⟩
  · obtain ⟨result, is, offset, inside, decoded⟩ := decodeDefinitionBuffer_front built small fits run
    refine ⟨_, decoded, fun definition => ⟨fun isOk => ⟨operations, rfl, ?_⟩, encoded decoded⟩, ?_⟩
    · cases result with
      | ok found =>
        obtain rfl : found = definition := Except.ok.inj isOk
        rw [build, run]
        exact is
      | error error => cases isOk
    · intro error isError
      cases result with
      | ok found => cases isError
      | error cause =>
        obtain rfl : mapBuilderError operations.length offset cause = error := Except.error.inj isError
        refine Located.placed ⟨_, _, rfl, inside⟩ (Nat.le_of_eq ?_)
        exact (commandCount_encode small).symm
  · have decoded : decodeDefinitionBuffer base fromBits input = some (.error error) := by
      unfold decodeDefinitionBuffer
      rw [failed]
    refine ⟨_, decoded, fun definition => ⟨fun isOk => ?_, encoded decoded⟩, ?_⟩
    · cases isOk
    · rintro _ rfl'
      obtain rfl := Except.error.inj rfl'
      exact placed

/-- A resistance of one between two terminals. -/
def resistorOperations : List RawOperation :=
  [.addTerminal, .addTerminal,
    .addElement ⟨PrimitiveElementKind.resistance.definitionId, [⟨0, Nat.two_pow_pos 32⟩, ⟨1, Nat.one_lt_two_pow (Nat.succ_ne_zero 31)⟩],
      [.literal (BitVec.ofNat 64 0x3FF0000000000000)]⟩]

/-- The bits of one. -/
def oneFromBits (bits : BitVec 64) : CappedRat := if bits = BitVec.ofNat 64 0x3FF0000000000000 then ⟨some 1⟩ else ⟨none⟩

theorem decodeDefinitionBuffer_spec_resistor :
    ∃ definition, decodeDefinitionBuffer .new oneFromBits (encodeBuffer resistorOperations) = some (.ok definition) := by
  have builds : ((build .new (resistorOperations.map (Operation.map oneFromBits))).map Except.toOption).join.isSome = true := by
    decide +kernel
  obtain ⟨result, decoded, isOk, -⟩ := decodeDefinitionBuffer_spec oneFromBits .new (encodeBuffer resistorOperations)
    (by decide)
  cases built : build .new (resistorOperations.map (Operation.map oneFromBits)) with
  | none =>
    rw [built] at builds
    cases builds
  | some outcome =>
    cases outcome with
    | error error =>
      rw [built] at builds
      cases builds
    | ok definition => exact ⟨definition, ((isOk definition).mpr ⟨_, rfl, built⟩) ▸ decoded⟩

end DefinitionCommands

end Hynergy
