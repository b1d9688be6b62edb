import Hynergy.Protocol.WorldFormat

/-!
# Reading and applying a buffer

What a buffer does is what its commands do, up to the first that fails or is not there.
-/

namespace Hynergy

open Lib

open Decoder (rest_after sound_after)

namespace WorldCommands

variable {σ : Type} {apply : RawCommand → Call σ WorldCommandApplyError Unit}

/-- The commands are applied one after the other. -/
inductive Applied (apply : RawCommand → Call σ WorldCommandApplyError Unit) : List RawCommand → σ → σ → Prop
  | nil {s : σ} : Applied apply [] s s
  | cons {command : RawCommand} {commands : List RawCommand} {s mid t : σ} (first : apply command s = .ok () mid)
      (rest : Applied apply commands mid t) : Applied apply (command :: commands) s t

/-! ### The loop -/

section Loop

variable {self : Decoder} {commandIndex : Nat}

theorem decoding_ok {α : Type} {call : Decode α} {value : α} {after : Decoder} {s : σ}
    (h : call self = .ok value after) : (decoding call : Applying σ α) (self, s) = .ok value (after, s) :=
  Call.zoom_ok h

theorem decoding_err {α : Type} {call : Decode α} {error : WorldCommandError} {after : Decoder} {s : σ}
    (h : call self = .err error after) : (decoding call : Applying σ α) (self, s) = .err error (after, s) :=
  Call.zoom_err h

/-- One turn of the loop over a frame. -/
theorem applyCommands_frame (h : self.Sound) {command : RawCommand} {tail : List Byte}
    (front : self.rest = encodeCommand command ++ tail) (remaining : Nat) (s : σ) :
    applyCommands apply (remaining + 1) commandIndex (self, s) =
      match apply command s with
      | .ok () after => applyCommands apply remaining (commandIndex + 1) (self.advance (encodeCommand command).length, after)
      | .err error after => .err (mapWorldApplyError error commandIndex self.offset)
          (self.advance (encodeCommand command).length, after)
      | .panic => .panic := by
  rw [applyCommands, Call.bind_ok (decoding_ok (decodeFrame_front h command front))]
  dsimp only
  cases run : apply command s with
  | ok value after =>
    rw [Call.bind_ok (Call.zoom_ok run)]
  | err error after =>
    rw [Call.bind_err (Call.zoom_err run)]
  | panic =>
    exact Call.bind_panic (by rw [Call.zoom, run])

/-- All frames are there and applied. -/
theorem applyCommands_ok (h : self.Sound) {commands : List RawCommand} {tail : List Byte}
    (front : self.rest = encodeCommands commands ++ tail) {s t : σ} (applied : Applied apply commands s t) :
    applyCommands apply commands.length commandIndex (self, s) =
      .ok () (self.advance (encodeCommands commands).length, t) := by
  induction applied generalizing self commandIndex with
  | nil => rfl
  | @cons command commands s mid t first rest ih =>
    rw [encodeCommands, List.flatMap_cons, List.append_assoc] at front
    rw [List.length_cons, applyCommands_frame h front, first]
    dsimp only
    rw [ih (sound_after h front rfl) (rest_after front rfl), Decoder.advance_advance]
    simp [encodeCommands]

/-- How a loop that stops before its end left things: the commands that were applied, the frames
that follow, and why it stopped. -/
inductive Stopped (apply : RawCommand → Call σ WorldCommandApplyError Unit) (limit commandIndex : Nat)
    (bytes : List Byte) (s : σ) : WorldCommandError → σ → Prop
  /-- What follows is no frame. -/
  | format (commands : List RawCommand) (tail : List Byte) {kind : WorldCommandErrorKind} {offset : Nat} {t : σ}
      (front : bytes = encodeCommands commands ++ tail) (applied : Applied apply commands s t)
      (malformed : ∀ command tail', tail ≠ encodeCommand command ++ tail') (framing : isFrameError kind = true)
      (inside : offset ≤ limit) :
      Stopped apply limit commandIndex bytes s (.new kind (commandIndex + commands.length) offset) t
  /-- The next command is rejected. -/
  | rejected (commands : List RawCommand) (command : RawCommand) (tail : List Byte)
      {error : WorldCommandApplyError} {offset : Nat} {mid t : σ}
      (front : bytes = encodeCommands commands ++ (encodeCommand command ++ tail))
      (applied : Applied apply commands s mid) (rejects : apply command mid = .err error t)
      (inside : offset ≤ limit) :
      Stopped apply limit commandIndex bytes s (mapWorldApplyError error (commandIndex + commands.length) offset) t

/-- One of the commands panics. -/
def Panics (apply : RawCommand → Call σ WorldCommandApplyError Unit) (count : Nat) (bytes : List Byte) (s : σ) :
    Prop :=
  ∃ commands command tail mid, commands.length < count ∧
    bytes = encodeCommands commands ++ (encodeCommand command ++ tail) ∧ Applied apply commands s mid ∧
    apply command mid = .panic

theorem encodeCommands_cons (command : RawCommand) (commands : List RawCommand) (tail : List Byte) :
    encodeCommand command ++ (encodeCommands commands ++ tail) = encodeCommands (command :: commands) ++ tail := by
  rw [encodeCommands, encodeCommands, List.flatMap_cons, List.append_assoc]

/-- The loop applies all commands, or stops, or the command it stops at panics. -/
theorem applyCommands_cases (h : self.Sound) (remaining commandIndex : Nat) (s : σ) :
    (∃ commands tail t, commands.length = remaining ∧ self.rest = encodeCommands commands ++ tail ∧
        Applied apply commands s t) ∨
      (∃ error t after, applyCommands apply remaining commandIndex (self, s) = .err error (after, t) ∧
        Stopped apply (self.baseOffset + self.input.length) commandIndex self.rest s error t ∧
        error.commandIndex < commandIndex + remaining) ∨
      applyCommands apply remaining commandIndex (self, s) = .panic ∧ Panics apply remaining self.rest s := by
  induction remaining generalizing self commandIndex s with
  | zero => exact Or.inl ⟨[], self.rest, s, rfl, rfl, .nil⟩
  | succ remaining ih =>
    rcases decodeFrame_cases h commandIndex with ⟨command, tail, front⟩ | ⟨kind, offset, after, fails, framing, inside, none'⟩
    · have sound := sound_after h front rfl
      have front' := rest_after front rfl
      rw [applyCommands_frame h front]
      cases run : apply command s with
      | ok value mid =>
        dsimp only
        rcases ih sound (commandIndex + 1) mid with ⟨commands, tail', t, length, rest, applied⟩ |
            ⟨error, t, after, fails, stopped, before⟩ | ⟨panics, commands, next, tail', last, fewer, rest, applied, panic'⟩
        · refine Or.inl ⟨command :: commands, tail', t, by rw [List.length_cons, length], ?_, .cons run applied⟩
          rw [front, ← front', rest, encodeCommands_cons]
        · refine Or.inr (Or.inl ⟨error, t, after, fails, ?_, by omega⟩)
          cases stopped with
          | @format commands tail' kind offset t rest applied malformed framing inside =>
            rw [Nat.add_right_comm, Nat.add_assoc]
            refine .format (command :: commands) tail' ?_ (.cons run applied) malformed framing inside
            rw [front, ← front', rest, encodeCommands_cons]
          | @rejected commands next tail' error offset last t rest applied rejects inside =>
            rw [Nat.add_right_comm, Nat.add_assoc]
            refine .rejected (command :: commands) next tail' ?_ (.cons run applied) rejects inside
            rw [front, ← front', rest, encodeCommands_cons]
        · refine Or.inr (Or.inr ⟨panics, command :: commands, next, tail', last, Nat.succ_lt_succ fewer, ?_,
            .cons run applied, panic'⟩)
          rw [front, ← front', rest, encodeCommands_cons]
      | err error t =>
        refine Or.inr (Or.inl ⟨_, t, _, rfl, ?_, ?_⟩)
        · exact .rejected [] command tail front .nil run (Nat.add_le_add_left h _)
        · cases error <;> simp [mapWorldApplyError, WorldCommandError.new]
      | panic => exact Or.inr (Or.inr ⟨rfl, [], command, tail, s, Nat.succ_pos _, front, .nil, run⟩)
    · refine Or.inr (Or.inl ⟨_, s, after, ?_, .format [] _ rfl .nil none' framing inside, ?_⟩)
      · rw [applyCommands, Call.bind_err (decoding_err fails)]
        rfl
      · simp [WorldCommandError.new]

/-- A command that panics is reached. -/
theorem applyCommands_panic (h : self.Sound) {commands : List RawCommand} {command : RawCommand} {tail : List Byte}
    (front : self.rest = encodeCommands commands ++ (encodeCommand command ++ tail)) {s mid : σ}
    (applied : Applied apply commands s mid) (panics : apply command mid = .panic) {remaining : Nat}
    (fewer : commands.length < remaining) : applyCommands apply remaining commandIndex (self, s) = .panic := by
  induction applied generalizing self commandIndex remaining with
  | nil =>
    obtain ⟨rest, rfl⟩ := Nat.exists_eq_succ_of_ne_zero (Nat.ne_of_gt fewer)
    rw [applyCommands_frame h front, panics]
  | @cons first commands s mid' t run rest ih =>
    obtain ⟨count, rfl⟩ := Nat.exists_eq_succ_of_ne_zero (Nat.ne_of_gt (Nat.zero_lt_of_lt fewer))
    rw [← encodeCommands_cons] at front
    rw [applyCommands_frame h front, run]
    exact ih (sound_after h front rfl) (rest_after front rfl) panics (Nat.lt_of_succ_lt_succ fewer)

end Loop

/-! ### Buffers -/

theorem length_encodeCommands (commands : List RawCommand) : commands.length ≤ (encodeCommands commands).length := by
  induction commands with
  | nil => exact Nat.le_refl _
  | cons command commands ih =>
    have here := length_encodeCommand command
    rw [encodeCommands] at ih
    rw [encodeCommands, List.flatMap_cons, List.length_append, List.length_cons]
    omega

/-- Frames are read back one by one. -/
theorem encodeCommand_inj {a b : RawCommand} {tail tail' : List Byte}
    (same : encodeCommand a ++ tail = encodeCommand b ++ tail') : a = b ∧ tail = tail' := by
  have sound := Decoder.sound_new (encodeCommand a ++ tail) 0
  have first := @decodeFrame_front _ 0 sound a _ rfl
  rw [decodeFrame_front sound b same] at first
  obtain ⟨same', -⟩ := Outcome.ok.inj first
  obtain ⟨rfl, -⟩ := Prod.mk.inj same'
  exact ⟨rfl, List.append_cancel_left same⟩

theorem encodeCommands_inj {as bs : List RawCommand} {tail tail' : List Byte} (length : as.length = bs.length)
    (same : encodeCommands as ++ tail = encodeCommands bs ++ tail') : as = bs ∧ tail = tail' := by
  induction as generalizing bs with
  | nil =>
    obtain rfl := List.length_eq_zero_iff.mp length.symm
    exact ⟨rfl, same⟩
  | cons a as ih =>
    cases bs with
    | nil => exact absurd length (by simp)
    | cons b bs =>
      rw [← encodeCommands_cons, ← encodeCommands_cons] at same
      obtain ⟨rfl, rest⟩ := encodeCommand_inj same
      obtain ⟨rfl, left⟩ := ih (Nat.succ.inj length) rest
      exact ⟨rfl, left⟩

/-- Where a call on a buffer that fails leaves things. -/
structure Refused (apply : RawCommand → Call σ WorldCommandApplyError Unit) (input : List Byte) (s : σ)
    (error : WorldCommandError) (t : σ) : Prop where
  offset : error.byteOffset = u32Max ∨ error.byteOffset ≤ input.length
  unapplied : error.commandIndex = u32Max → t = s
  /-- An error at a command: the commands before it are applied, and nothing after. -/
  applied : error.commandIndex ≠ u32Max → ∃ count commands rest mid,
    count < 2 ^ 32 ∧ input = encodeHeader count ++ (encodeCommands commands ++ rest) ∧
    commands.length = error.commandIndex ∧ commands.length ≤ count ∧
    (error.kind = .trailingBytes → commands.length = count ∧ rest ≠ []) ∧
    Applied apply commands s mid ∧
    (t = mid ∨ ∃ command tail applyError, rest = encodeCommand command ++ tail ∧
      apply command mid = .err applyError t)

/-- A call on a buffer that does what the format says. -/
structure Faithful (apply : RawCommand → Call σ WorldCommandApplyError Unit) (worldExists : Bool)
    (input : List Byte) (s : σ) (outcome : Outcome σ WorldCommandError Unit) : Prop where
  returns : outcome ≠ .panic
  /-- The buffer is accepted just if it is the encoding of commands that are all accepted. -/
  ok : ∀ t, outcome = .ok () t ↔
    worldExists = true ∧ ∃ commands, input = encodeBuffer commands ∧ Applied apply commands s t
  err : ∀ error t, outcome = .err error t → Refused apply input s error t

/-- A command of the buffer is reached and panics. -/
def BufferPanics (apply : RawCommand → Call σ WorldCommandApplyError Unit) (worldExists : Bool)
    (input : List Byte) (s : σ) : Prop :=
  worldExists = true ∧ ∃ count tail, count < 2 ^ 32 ∧ input = encodeHeader count ++ tail ∧ Panics apply count tail s

section Buffer

variable {input : List Byte} {worldExists : Bool} {s t : σ}

theorem front_new {header tail : List Byte} (split : input = header ++ tail) :
    (Decoder.new input 0).rest = header ++ tail := split

theorem inner_ok {commands : List RawCommand} (fits : commands.length < 2 ^ 32)
    (encoded : input = encodeBuffer commands) (applied : Applied apply commands s t) :
    applyWorldCommandBufferInner input true apply s = .ok () t := by
  have sound := Decoder.sound_new input 0
  have front := front_new encoded
  have sound' := sound_after sound front (length_encodeHeader _)
  have front' := rest_after front (length_encodeHeader _)
  rw [← List.append_nil (encodeCommands commands)] at front'
  unfold applyWorldCommandBufferInner applyBuffer
  rw [Call.bind_ok (decoding_ok (decodeHeader_front sound fits front)), Call.rejectIf_bind_neg (by decide),
    Call.bind_ok (applyCommands_ok sound' front' applied), Call.get_bind,
    (sound_after sound' front' rfl).isEmpty, rest_after front' rfl]
  rfl

theorem inner_panics (panics : BufferPanics apply worldExists input s) :
    applyWorldCommandBufferInner input worldExists apply s = .panic := by
  obtain ⟨rfl, count, tail, fits, split, commands, command, tail', mid, fewer, front, applied, panics⟩ := panics
  have sound := Decoder.sound_new input 0
  have header := front_new split
  have sound' := sound_after sound header (length_encodeHeader _)
  have front' := (rest_after header (length_encodeHeader _)).trans front
  unfold applyWorldCommandBufferInner applyBuffer
  rw [Call.bind_ok (decoding_ok (decodeHeader_front sound fits header)), Call.rejectIf_bind_neg (by decide),
    Call.bind_panic (applyCommands_panic sound' front' applied panics fewer)]

/-- What is left once the decoder is dropped. -/
def dropDecoder {α : Type} : Outcome (Decoder × σ) WorldCommandError α → Outcome σ WorldCommandError α
  | .ok value after => .ok value after.2
  | .err error after => .err error after.2
  | .panic => .panic

theorem inner_eq : applyWorldCommandBufferInner input worldExists apply s =
    dropDecoder (applyBuffer worldExists apply (Decoder.new input 0, s)) := by
  unfold applyWorldCommandBufferInner
  cases applyBuffer worldExists apply (Decoder.new input 0, s) <;> rfl

theorem refused_header {kind : WorldCommandErrorKind} {offset : Nat} (inside : offset ≤ input.length) :
    Refused apply input s (.header kind offset) s := by
  refine ⟨Or.inr ?_, fun _ => rfl, fun other => absurd rfl other⟩
  exact (Nat.mod_le _ _).trans inside

/-- What a call on a buffer can do. -/
theorem inner_cases (short : input.length < 2 ^ 32) (worldExists : Bool)
    (apply : RawCommand → Call σ WorldCommandApplyError Unit) (s : σ) :
    (worldExists = true ∧ ∃ commands t, input = encodeBuffer commands ∧ Applied apply commands s t) ∨
      (∃ error t, applyWorldCommandBufferInner input worldExists apply s = .err error t ∧
        Refused apply input s error t) ∨
      BufferPanics apply worldExists input s := by
  have sound := Decoder.sound_new input 0
  have all : (Decoder.new input 0).baseOffset + (Decoder.new input 0).input.length = input.length := Nat.zero_add _
  rcases (decodeHeader_parses sound).cases with ⟨count, tail, fits, split⟩ | ⟨_, after, fails, kind, offset, rfl, inside⟩
  swap
  · refine Or.inr (Or.inl ⟨.header kind offset, s, ?_, refused_header (all ▸ inside)⟩)
    unfold applyWorldCommandBufferInner applyBuffer
    rw [Call.bind_err (decoding_err fails)]
  rw [Decoder.rest_new] at split
  have header := front_new split
  have sound' := sound_after sound header (length_encodeHeader _)
  have front' := rest_after header (length_encodeHeader _)
  cases worldExists with
  | false =>
    refine Or.inr (Or.inl ⟨.world .unknownWorld, s, ?_, Or.inl rfl, fun _ => rfl, fun other => absurd rfl other⟩)
    unfold applyWorldCommandBufferInner applyBuffer
    rw [Call.bind_ok (decoding_ok (decodeHeader_front sound fits header)), Call.rejectIf_bind_pos rfl]
  | true =>
    have run : applyWorldCommandBufferInner input true apply s =
        dropDecoder ((do
          applyCommands apply count 0
          let self ← Call.get
          let empty ← Call.expect self.1.isEmpty
          Call.rejectIf (empty = false) (.new .trailingBytes count self.1.offset) : Applying σ Unit)
          ((Decoder.new input 0).advance 16, s)) := by
      rw [inner_eq, applyBuffer, Call.bind_ok (decoding_ok (decodeHeader_front sound fits header)),
        Call.rejectIf_bind_neg (by decide)]
    rcases @applyCommands_cases _ apply _ sound' count 0 s with ⟨commands, tail', t, rfl, rest, applied⟩ |
        ⟨error, t, after, fails, stopped, before⟩ | ⟨-, panics⟩
    · rw [front'] at rest
      cases tail' with
      | nil =>
        rw [List.append_nil] at rest
        exact Or.inl ⟨rfl, commands, t, by rw [split, rest, encodeBuffer], applied⟩
      | cons byte tail' =>
        have front'' := front'.trans rest
        have sound'' := sound_after sound' front'' rfl
        refine Or.inr (Or.inl ⟨.new .trailingBytes commands.length
          (((Decoder.new input 0).advance 16).advance (encodeCommands commands).length).offset, t, ?_, Or.inr ?_,
          fun full => ?_, fun _ => ⟨commands.length, commands, byte :: tail', t, fits, by rw [split, rest], rfl,
            le_refl _, fun _ => ⟨rfl, by simp⟩, applied, Or.inl rfl⟩⟩)
        · rw [run, Call.bind_ok (applyCommands_ok sound' front'' applied), Call.get_bind, sound''.isEmpty,
            rest_after front'' rfl]
          rfl
        · refine (Nat.mod_le _ _).trans ?_
          rw [Decoder.offset]
          simp only [Decoder.Sound, Decoder.advance, Decoder.new] at sound'' ⊢
          omega
        · -- the frames alone are longer
          have := length_encodeCommands commands
          have bytes := congrArg List.length split
          rw [rest, List.length_append, List.length_append, List.length_cons] at bytes
          simp only [WorldCommandError.new, u32Max] at full
          omega
    · refine Or.inr (Or.inl ⟨error, t, ?_, ?_⟩)
      · rw [run, Call.bind_err fails]
        rfl
      · have bound : error.commandIndex ≠ u32Max := by
          simp only [u32Max]
          omega
        cases stopped with
        | @format commands tail' kind offset t rest applied malformed framing inside =>
          have is : 0 + commands.length = commands.length := Nat.zero_add _
          simp only [WorldCommandError.new] at before
          refine ⟨Or.inr ((Nat.mod_le _ _).trans (all ▸ inside)), fun full => absurd full bound, fun _ =>
            ⟨count, commands, tail', t, fits, by rw [split, ← front', rest], is.symm, by omega, fun trailing => ?_,
              applied, Or.inl rfl⟩⟩
          simp only [WorldCommandError.new] at trailing
          rw [trailing] at framing
          exact absurd framing (by decide)
        | @rejected commands command tail' error offset mid t rest applied rejects inside =>
          have index : (mapWorldApplyError error (0 + commands.length) offset).commandIndex = 0 + commands.length := by
            cases error <;> rfl
          have there : (mapWorldApplyError error (0 + commands.length) offset).byteOffset = offset % 2 ^ 32 := by
            cases error <;> rfl
          have kind : (mapWorldApplyError error (0 + commands.length) offset).kind ≠ .trailingBytes := by
            cases error with
            | unknownWorld => intro h; cases h
            | model e => cases e <;> intro h <;> cases h
          rw [index] at before
          refine ⟨Or.inr (there ▸ (Nat.mod_le _ _).trans (all ▸ inside)), fun full => absurd full bound, fun _ =>
            ⟨count, commands, encodeCommand command ++ tail', mid, fits, by rw [split, ← front', rest], ?_, by omega,
              fun trailing => absurd trailing kind, applied, Or.inr ⟨command, tail', error, rfl, rejects⟩⟩⟩
          rw [index, Nat.zero_add]
    · exact Or.inr (Or.inr ⟨rfl, count, tail, fits, split, front' ▸ panics⟩)

/-- A buffer does what the format says just if no command of it is reached that panics. -/
theorem inner_faithful (short : input.length < 2 ^ 32) :
    Faithful apply worldExists input s (applyWorldCommandBufferInner input worldExists apply s) ↔
      ¬ BufferPanics apply worldExists input s := by
  constructor
  · intro faithful panics
    exact faithful.returns (inner_panics panics)
  · intro fine
    have few : ∀ {commands}, input = encodeBuffer commands → commands.length < 2 ^ 32 := by
      intro commands encoded
      have := length_encodeCommands commands
      rw [encoded, encodeBuffer, List.length_append] at short
      omega
    have accepted : ∀ t, (worldExists = true ∧ ∃ commands, input = encodeBuffer commands ∧ Applied apply commands s t) →
        applyWorldCommandBufferInner input worldExists apply s = .ok () t := by
      rintro t ⟨rfl, commands, encoded, applied⟩
      exact inner_ok (few encoded) encoded applied
    rcases inner_cases short worldExists apply s with ⟨exists', commands, t, encoded, applied⟩ |
        ⟨error, t, fails, refused⟩ | panics
    · have run := accepted t ⟨exists', commands, encoded, applied⟩
      rw [run]
      refine ⟨fun h => (by cases h), fun t' => ⟨fun same => ?_, fun other => ?_⟩, fun _ _ failed => by cases failed⟩
      · obtain ⟨-, rfl⟩ := Outcome.ok.inj same
        exact ⟨exists', commands, encoded, applied⟩
      · rw [← run]
        exact accepted t' other
    · rw [fails]
      refine ⟨fun h => (by cases h), fun t' => ⟨fun same => (by cases same), fun other => ?_⟩, fun error' t' same => ?_⟩
      · rw [← fails]
        exact accepted t' other
      · obtain ⟨rfl, rfl⟩ := Outcome.err.inj same
        exact refused
    · exact absurd panics fine

/-! ### Replaying -/

/-- The commands one after the other, from an index and an offset on. -/
def replay (apply : RawCommand → Call σ WorldCommandApplyError Unit) :
    List RawCommand → Nat → Nat → Call σ WorldCommandError Unit
  | [], _, _ => pure ()
  | command :: commands, commandIndex, offset => do
    Call.mapErr (mapWorldApplyError · commandIndex offset) (apply command)
    replay apply commands (commandIndex + 1) (offset + (encodeCommand command).length)

theorem replay_err {commands : List RawCommand} {commandIndex offset : Nat} {error : WorldCommandError}
    (fails : replay apply commands commandIndex offset s = .err error t) : isFraming error.kind = false := by
  induction commands generalizing commandIndex offset s with
  | nil => cases fails
  | cons command commands ih =>
    rw [replay] at fails
    cases run : apply command s with
    | ok value after =>
      rw [Call.bind_ok (Call.mapErr_ok run)] at fails
      exact ih fails
    | err applyError after =>
      rw [Call.bind_err (Call.mapErr_err run)] at fails
      obtain ⟨rfl, -⟩ := Outcome.err.inj fails
      cases applyError with
      | unknownWorld => rfl
      | model e => cases e <;> rfl
    | panic =>
      rw [Call.bind_panic (by rw [Call.mapErr, Call.zoom, id, run])] at fails
      cases fails

theorem replay_ok {commands : List RawCommand} {commandIndex offset : Nat}
    (run : replay apply commands commandIndex offset s = .ok () t) : Applied apply commands s t := by
  induction commands generalizing commandIndex offset s with
  | nil =>
    cases run
    exact .nil
  | cons command commands ih =>
    rw [replay] at run
    cases first : apply command s with
    | ok value after =>
      rw [Call.bind_ok (Call.mapErr_ok first)] at run
      exact .cons first (ih run)
    | err applyError after =>
      rw [Call.bind_err (Call.mapErr_err first)] at run
      cases run
    | panic =>
      rw [Call.bind_panic (by rw [Call.mapErr, Call.zoom, id, first])] at run
      cases run

/-- The commands up to the one that is rejected. -/
theorem replay_rejects {commands : List RawCommand} {commandIndex offset : Nat} {error : WorldCommandError}
    (fails : replay apply commands commandIndex offset s = .err error t) :
    ∃ first command rest mid applyError index start, commands = first ++ command :: rest ∧ Applied apply first s mid ∧
      apply command mid = .err applyError t ∧ error = mapWorldApplyError applyError index start := by
  induction commands generalizing commandIndex offset s with
  | nil => cases fails
  | cons command commands ih =>
    rw [replay] at fails
    cases run : apply command s with
    | ok value after =>
      rw [Call.bind_ok (Call.mapErr_ok run)] at fails
      obtain ⟨first, failing, rest, mid, applyError, index, start, rfl, applied, rejects, rfl⟩ := ih fails
      exact ⟨command :: first, failing, rest, mid, applyError, index, start, rfl, .cons run applied, rejects, rfl⟩
    | err applyError after =>
      rw [Call.bind_err (Call.mapErr_err run)] at fails
      obtain ⟨rfl, rfl⟩ := Outcome.err.inj fails
      exact ⟨[], command, commands, s, applyError, _, _, rfl, .nil, run, rfl⟩
    | panic =>
      rw [Call.bind_panic (by rw [Call.mapErr, Call.zoom, id, run])] at fails
      cases fails

/-- An encoding is read back as its commands. -/
theorem inner_replay {commands : List RawCommand} (fits : commands.length < 2 ^ 32) :
    applyWorldCommandBufferInner (encodeBuffer commands) true apply s = replay apply commands 0 16 s := by
  have sound := Decoder.sound_new (encodeBuffer commands) 0
  have front : (Decoder.new (encodeBuffer commands) 0).rest = encodeHeader commands.length ++ encodeCommands commands := rfl
  have sound' := sound_after sound front (length_encodeHeader _)
  have front' := rest_after front (length_encodeHeader _)
  have loop : ∀ (list : List RawCommand) (self : Decoder) (commandIndex offset : Nat) (s : σ), self.Sound →
      self.rest = encodeCommands list → self.offset = offset →
      (applyCommands apply list.length commandIndex (self, s)).Meets (replay apply list commandIndex offset s = .panic)
        (fun value after => (after.1.rest = [] ∧ after.1.Sound) ∧
          replay apply list commandIndex offset s = .ok value after.2)
        fun error after => replay apply list commandIndex offset s = .err error after.2 := by
    intro list
    induction list with
    | nil =>
      intro self commandIndex offset s sound rest _
      exact ⟨⟨rest, sound⟩, rfl⟩
    | cons command list ih =>
      intro self commandIndex offset s sound rest here
      rw [encodeCommands, List.flatMap_cons] at rest
      have next := ih (self.advance (encodeCommand command).length) (commandIndex + 1)
        (offset + (encodeCommand command).length)
      rw [List.length_cons, applyCommands_frame sound rest, replay, here]
      cases run : apply command s with
      | ok value after =>
        rw [Call.bind_ok (Call.mapErr_ok run)]
        refine next after (sound_after sound rest rfl) (rest_after rest rfl) ?_
        rw [← here]
        simp only [Decoder.offset, Decoder.advance, Nat.add_assoc]
      | err applyError after =>
        rw [Call.bind_err (Call.mapErr_err run)]
        rfl
      | panic =>
        rw [Call.bind_panic (by rw [Call.mapErr, Call.zoom, id, run])]
        rfl
  have all := loop commands ((Decoder.new (encodeBuffer commands) 0).advance 16) 0 16 s sound' front' rfl
  rw [inner_eq, applyBuffer, Call.bind_ok (decoding_ok (decodeHeader_front sound fits front)), Call.rejectIf_bind_neg (by decide)]
  cases run : applyCommands apply commands.length 0 ((Decoder.new (encodeBuffer commands) 0).advance 16, s) with
  | ok value after =>
    rw [run] at all
    obtain ⟨⟨rest, sound''⟩, replayed⟩ := all
    rw [Call.bind_ok run, Call.get_bind, sound''.isEmpty, rest, replayed]
    rfl
  | err error after =>
    rw [run] at all
    rw [Call.bind_err run, show replay apply commands 0 16 s = .err error after.2 from all]
    rfl
  | panic =>
    rw [run] at all
    rw [Call.bind_panic run, show replay apply commands 0 16 s = .panic from all]
    rfl

end Buffer

end WorldCommands

end Hynergy
