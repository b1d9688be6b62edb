import Hynergy.Client.CommandAgreement

/-!
# Sessions of the client

Any calls on a buffer, with memory granted or not at each, and what the engine reads from the
segment then.
-/

namespace Hynergy

open Lib

open WorldCommands (RawCommand encodeHeader encodeCommands encodeBuffer applyWorldCommandBufferInner replay
  isFraming length_encodeHeader)

namespace WorldCommandBuffer

variable {buffer : WorldCommandBuffer} {commands : List RawCommand}

/-! ### The other calls -/

theorem Encodes.clear (h : Encodes buffer commands) :
    ∃ next, clear buffer = .ok () next ∧ Encodes next [] := by
  unfold WorldCommandBuffer.clear requireOpen
  rw [Call.bind_bind, Call.get_bind, Call.rejectIf_bind_neg (by rw [h.isOpen]; decide)]
  obtain ⟨old, holds⟩ := h.holds
  exact ⟨_, rfl, h.isOpen, h.size, h.fits, rfl, rfl, old, by simpa [encodeCommands] using holds.left⟩

theorem encodeHeader_patched (old count : Nat) : ∃ front, front.length = 12 ∧
    encodeHeader old = front ++ bytesOf 4 old ∧ encodeHeader count = front ++ bytesOf 4 count :=
  ⟨WorldCommands.worldCommandBufferMagic ++ (bytesOf 2 WorldCommands.worldCommandBufferVersion ++
    (bytesOf 2 0 ++ bytesOf 4 0)), rfl, by simp [encodeHeader], by simp [encodeHeader]⟩

/-- The segment starts with the encoding of the commands. -/
theorem Encodes.encodedSegment (h : Encodes buffer commands) :
    ∃ next, encodedSegment buffer = .ok next.segment next ∧ Encodes next commands ∧
      Holds next.segment (encodeBuffer commands) := by
  unfold WorldCommandBuffer.encodedSegment requireOpen
  rw [Call.bind_bind, Call.get_bind, Call.rejectIf_bind_neg (by rw [h.isOpen]; decide), Call.get_bind]
  obtain ⟨old, holds⟩ := h.holds
  obtain ⟨front, length, before, after⟩ := encodeHeader_patched old commands.length
  rw [before, List.append_assoc] at holds
  obtain ⟨segment, run, size, holds'⟩ := @Holds.patch _ (bytesOf 4 commands.length) _ _ _ holds (by
    rw [length_bytesOf, length_bytesOf])
  rw [length] at run
  rw [← List.append_assoc, ← after] at holds'
  have patched : put commandCountOffset (bytesOf 4 buffer.commandCount) buffer = .ok () { buffer with segment } := by
    unfold put commandCountOffset
    rw [Call.get_bind, h.count, run, Call.okOr_some_bind]
    rfl
  rw [Call.bind_ok patched]
  exact ⟨{ buffer with segment }, rfl, ⟨h.isOpen, size.trans h.size, h.fits, h.count, h.position, _, holds'⟩, holds'⟩

theorem Encodes.byteSize (h : Encodes buffer commands) :
    byteSize buffer = .ok (encodeBuffer commands).length buffer := by
  unfold WorldCommandBuffer.byteSize requireOpen
  rw [Call.bind_bind, Call.get_bind, Call.rejectIf_bind_neg (by rw [h.isOpen]; decide), Call.get_bind, h.position,
    encodeBuffer, List.length_append, length_encodeHeader]
  rfl

/-! ### A new buffer -/

theorem initializeHeader_spec (h : Writing buffer buffer [] 16) :
    ∃ next, initializeHeader buffer = .ok () next ∧ Writing buffer next (encodeHeader 0) 16 := by
  unfold initializeHeader
  obtain ⟨_, run0, h0⟩ := @Writing.put _ _ _ [0x48] _ 0 h rfl (by decide)
  obtain ⟨_, run1, h1⟩ := @Writing.put _ _ _ [0x59] _ 1 h0 rfl (by decide)
  obtain ⟨_, run2, h2⟩ := @Writing.put _ _ _ [0x57] _ 2 h1 rfl (by decide)
  obtain ⟨_, run3, h3⟩ := @Writing.put _ _ _ [0x43] _ 3 h2 rfl (by decide)
  obtain ⟨_, run4, h4⟩ := @Writing.put _ _ _ (bytesOf 2 version) _ 4 h3 rfl (by decide)
  obtain ⟨_, run5, h5⟩ := @Writing.put _ _ _ (bytesOf 2 0) _ 6 h4 rfl (by decide)
  obtain ⟨_, run6, h6⟩ := @Writing.put _ _ _ (bytesOf 4 0) _ 8 h5 rfl (by decide)
  obtain ⟨next, run7, h7⟩ := @Writing.put _ _ _ (bytesOf 4 0) _ commandCountOffset h6 rfl (by decide)
  rw [Call.bind_ok run0, Call.bind_ok run1, Call.bind_ok run2, Call.bind_ok run3, Call.bind_ok run4, Call.bind_ok run5,
    Call.bind_ok run6]
  exact ⟨next, run7, h7⟩

/-- The constructor throws for a small capacity and where memory is not granted. -/
theorem new_cases (initialCapacity : JavaInt) (allocates : Bool) :
    ((initialCapacity.toInt < 16 ∨ allocates = false) ∧
      ∃ e closed, new initialCapacity allocates = .err e closed) ∨
    ∃ buffer, new initialCapacity allocates = .ok () buffer ∧ Encodes buffer [] := by
  unfold new headerSize
  by_cases small : initialCapacity.toInt < (16 : Nat)
  · exact Or.inl ⟨Or.inl small, _, _, if_pos small⟩
  · rw [if_neg small]
    by_cases refused : allocates = false
    · exact Or.inl ⟨Or.inr refused, _, _, if_pos refused⟩
    · rw [if_neg refused]
      have signed := BitVec.toInt_eq_toNat_cond initialCapacity
      have large : 16 ≤ initialCapacity.toNat ∧ initialCapacity.toNat ≤ maxCapacity := by
        unfold maxCapacity
        split at signed <;> omega
      obtain ⟨next, run, writing⟩ := @initializeHeader_spec ⟨true, List.replicate initialCapacity.toNat 0,
        initialCapacity.toNat, 16, 0⟩ ⟨rfl, List.length_replicate, large.2, rfl, rfl, rfl, large.1⟩
      refine Or.inr ⟨next, run, writing.isOpen, writing.size, writing.fits, writing.count, writing.position, 0, ?_⟩
      simpa [encodeCommands] using writing.holds

/-! ### Sessions -/

/-- The commands to encode after a call that returned. -/
def BufferCall.after (accepted : List RawCommand) : BufferCall → List RawCommand
  | .clear | .close => []
  | .encodedSegment => accepted
  | call => accepted ++ call.command.toList

/-- Calls one after the other, each with memory granted or not, and the commands accepted since the
last `clear`; a call that throws is caught. -/
def runCalls : List (BufferCall × Bool) → WorldCommandBuffer → List RawCommand →
    Option (WorldCommandBuffer × List RawCommand)
  | [], buffer, accepted => some (buffer, accepted)
  | (call, allocates) :: calls, buffer, accepted =>
    match call.run allocates buffer with
    | .ok _ next => runCalls calls next (call.after accepted)
    | .err _ next => runCalls calls next accepted
    | .panic => none

/-- Where a call asks for a command, its arguments are those of one. -/
def BufferCall.IsAnswered (call : BufferCall) : Prop :=
  call.command.isSome ∨ call = .clear ∨ call = .encodedSegment ∨ call = .close

/-- The buffer is closed, or holds the commands. -/
def InSession (buffer : WorldCommandBuffer) (accepted : List RawCommand) : Prop :=
  buffer.isOpen = false ∨ Encodes buffer accepted

/-- A call that asks for a command. -/
theorem Accepts.step {call : BufferCall} {outcome : Outcome WorldCommandBuffer JavaException Unit}
    (h : Accepts buffer commands call outcome) :
    (∃ e, outcome = .err e buffer) ∨
      ∃ next, outcome = .ok () next ∧ InSession next (call.after commands) ∧ call.IsAnswered := by
  rcases h with throws | ⟨next, command, run, known, encodes⟩
  · exact Or.inl throws
  · refine Or.inr ⟨next, run, Or.inr ?_, Or.inl (by rw [known]; rfl)⟩
    cases call with
    | clear | encodedSegment | close => exact absurd known nofun
    | _ =>
      show Encodes next (commands ++ (BufferCall.command _).toList)
      rw [known]
      exact encodes

theorem Encodes.step (h : Encodes buffer commands) (call : BufferCall) (allocates : Bool) :
    (∃ e, call.run allocates buffer = .err e buffer) ∨
      ∃ next, call.run allocates buffer = .ok () next ∧ InSession next (call.after commands) ∧ call.IsAnswered := by
  cases call with
  | addWire wireId => exact (h.addWire allocates wireId).step
  | removeWire wireId => exact (h.removeWire allocates wireId).step
  | connectWires wireAId wireBId => exact (h.connectWires allocates wireAId wireBId).step
  | disconnectWires wireAId wireBId => exact (h.disconnectWires allocates wireAId wireBId).step
  | addDevice deviceId definitionId => exact (h.addDevice allocates deviceId definitionId).step
  | removeDevice deviceId => exact (h.removeDevice allocates deviceId).step
  | attachTerminal wireId deviceId terminalId => exact (h.attachTerminal allocates wireId deviceId terminalId).step
  | detachTerminal wireId deviceId terminalId => exact (h.detachTerminal allocates wireId deviceId terminalId).step
  | setDeviceParameter deviceId parameterId value =>
    exact (h.setDeviceParameter allocates deviceId parameterId value).step
  | clear =>
    obtain ⟨next, run, h'⟩ := h.clear
    exact Or.inr ⟨next, run, Or.inr h', Or.inr (Or.inl rfl)⟩
  | encodedSegment =>
    obtain ⟨next, run, h', -⟩ := h.encodedSegment
    refine Or.inr ⟨next, ?_, Or.inr h', Or.inr (Or.inr (Or.inl rfl))⟩
    show (WorldCommandBuffer.encodedSegment >>= fun _ => pure ()) buffer = _
    rw [Call.bind_ok run]
    rfl
  | close =>
    refine Or.inr ⟨_, rfl, Or.inl ?_, Or.inr (Or.inr (Or.inr rfl))⟩
    dsimp only
    rw [h.isOpen]
    rfl

/-! ### A closed buffer -/

theorem closed_require {condition : Prop} [Decidable condition] {e : JavaException} {rest : Unit → Java Unit}
    (throws : ∃ thrown, rest () buffer = .err thrown buffer) :
    ∃ thrown, (Call.rejectIf condition e >>= rest) buffer = .err thrown buffer := by
  by_cases fails : condition
  · exact ⟨e, Call.rejectIf_bind_pos fails _⟩
  · rw [Call.rejectIf_bind_neg fails]
    exact throws

theorem closed_requireOpen {α : Type} (closed : buffer.isOpen = false) (rest : Unit → Java α) :
    (requireOpen >>= rest) buffer = .err .illegalState buffer := by
  unfold requireOpen
  rw [Call.bind_bind, Call.get_bind, Call.rejectIf_bind_pos closed]

theorem closed_begin {α : Type} (closed : buffer.isOpen = false) (allocates : Bool) (tag size : Nat)
    (rest : Nat → Java α) : ∃ e, (beginCommand allocates tag size >>= rest) buffer = .err e buffer := by
  refine ⟨.illegalState, Call.bind_err ?_⟩
  unfold beginCommand
  exact closed_requireOpen closed _

/-- Nothing changes any more. -/
theorem closed_step (closed : buffer.isOpen = false) (call : BufferCall) (allocates : Bool) :
    (∃ e, call.run allocates buffer = .err e buffer) ∨ call = .close ∧ call.run allocates buffer = .ok () buffer := by
  cases call with
  | addWire | removeWire | removeDevice => exact Or.inl (closed_require (closed_begin closed _ _ _ _))
  | connectWires | disconnectWires | addDevice =>
    exact Or.inl (closed_require (closed_require (closed_begin closed _ _ _ _)))
  | attachTerminal | detachTerminal | setDeviceParameter =>
    exact Or.inl (closed_require (closed_require (closed_require (closed_begin closed _ _ _ _))))
  | clear => exact Or.inl ⟨_, closed_requireOpen closed _⟩
  | encodedSegment => exact Or.inl ⟨_, Call.bind_err (closed_requireOpen closed _)⟩
  | close =>
    refine Or.inr ⟨rfl, ?_⟩
    show Outcome.ok () (if buffer.isOpen then _ else buffer) = _
    rw [closed]
    rfl

theorem InSession.step (h : InSession buffer commands) (call : BufferCall) (allocates : Bool) :
    (∃ e, call.run allocates buffer = .err e buffer) ∨
      ∃ next, call.run allocates buffer = .ok () next ∧ InSession next (call.after commands) ∧ call.IsAnswered := by
  rcases h with closed | encodes
  · rcases closed_step closed call allocates with throws | ⟨rfl, run⟩
    · exact Or.inl throws
    · exact Or.inr ⟨buffer, run, Or.inl closed, Or.inr (Or.inr (Or.inr rfl))⟩
  · exact encodes.step call allocates

theorem InSession.run (h : InSession buffer commands) (calls : List (BufferCall × Bool)) :
    ∃ next accepted, runCalls calls buffer commands = some (next, accepted) ∧ InSession next accepted := by
  induction calls generalizing buffer commands with
  | nil => exact ⟨buffer, commands, rfl, h⟩
  | cons entry calls ih =>
    obtain ⟨call, allocates⟩ := entry
    rw [runCalls]
    rcases h.step call allocates with ⟨e, throws⟩ | ⟨next, run, h', -⟩
    · rw [throws]
      exact ih h
    · rw [run]
      exact ih h'

/-! ### What the engine reads -/

/-- There are fewer commands than bytes. -/
theorem Encodes.count_fits (h : Encodes buffer commands) : commands.length < 2 ^ 32 := by
  have frames : commands.length ≤ (encodeCommands commands).length := by
    have sum := List.length_le_sum_of_one_le (commands.map fun command => (WorldCommands.encodeCommand command).length)
    rw [List.length_map] at sum
    rw [encodeCommands, List.length_flatMap]
    refine sum ?_
    intro size mem
    obtain ⟨command, -, rfl⟩ := List.mem_map.mp mem
    rw [WorldCommands.length_encodeCommand]
    omega
  have front := h.front_le
  have fits := h.fits
  rw [h.position] at front
  unfold maxCapacity at fits
  omega

/-- The engine applies the commands one after the other, and no error is one of the format. -/
def ReadAs (input : List Byte) (commands : List RawCommand) : Prop :=
  ∀ (σ : Type) (apply : RawCommand → Call σ WorldCommandApplyError Unit) (s : σ),
    applyWorldCommandBufferInner input true apply s = replay apply commands 0 16 s ∧
      ∀ error after, applyWorldCommandBufferInner input true apply s = .err error after →
        isFraming error.kind = false

theorem readAs_encodeBuffer (fits : commands.length < 2 ^ 32) : ReadAs (encodeBuffer commands) commands := by
  intro σ apply s
  have replayed := @WorldCommands.inner_replay _ apply s _ fits
  refine ⟨replayed, ?_⟩
  intro error after fails
  rw [replayed] at fails
  exact WorldCommands.replay_err fails

/-- From every constructor call that returns: whatever is called, a call that throws leaves the
buffer as it is, and the engine reads the encoded bytes as the commands accepted since the last
`clear`. -/
theorem client_commands_read_back (initialCapacity : JavaInt) (granted : Bool) :
    ((initialCapacity.toInt < 16 ∨ granted = false) ∧ ∃ e closed, new initialCapacity granted = .err e closed) ∨
    ∃ buffer, new initialCapacity granted = .ok () buffer ∧ ∀ calls : List (BufferCall × Bool),
      ∃ next accepted, runCalls calls buffer [] = some (next, accepted) ∧
        (∀ (call : BufferCall) allocates,
          (∃ e, call.run allocates next = .err e next) ∨
            ∃ after, call.run allocates next = .ok () after ∧ call.IsAnswered) ∧
        (next.isOpen = true → ∃ segment after, encodedSegment next = .ok segment after ∧
          ∃ size, byteSize after = .ok size after ∧ ReadAs (segment.take size) accepted) := by
  rcases new_cases initialCapacity granted with throws | ⟨buffer, run, encodes⟩
  · exact Or.inl throws
  · refine Or.inr ⟨buffer, run, ?_⟩
    intro calls
    obtain ⟨next, accepted, runs, session⟩ := InSession.run (Or.inr encodes) calls
    refine ⟨next, accepted, runs, ?_, ?_⟩
    · intro call allocates
      rcases session.step call allocates with throws | ⟨after, run', -, answered⟩
      · exact Or.inl throws
      · exact Or.inr ⟨after, run', answered⟩
    · intro isOpen
      rcases session with closed | encodes'
      · exact absurd (isOpen.symm.trans closed) nofun
      · obtain ⟨after, segment, encodes'', holds⟩ := encodes'.encodedSegment
        refine ⟨after.segment, after, segment, _, encodes''.byteSize, ?_⟩
        rw [show after.segment.take (encodeBuffer accepted).length = encodeBuffer accepted from holds]
        exact readAs_encodeBuffer encodes''.count_fits

end WorldCommandBuffer

end Hynergy
