import Hynergy.Client.WorldCommandBuffer
import Hynergy.Protocol.WorldBuffer

/-!
# The client encodes what the engine decodes

The open buffer holds a header and the frames of the commands that were accepted since it was
cleared last.
-/

namespace Hynergy

open Lib

open WorldCommands (encodeHeader encodeCommands encodeCommand encodeBuffer payloadOf tagOf
  length_encodeHeader length_encodeCommand)

namespace WorldCommandBuffer

/-- The buffer is open and its front is the encoding of the commands, up to the count. -/
structure Encodes (buffer : WorldCommandBuffer) (commands : List WorldCommands.RawCommand) : Prop where
  isOpen : buffer.isOpen = true
  size : buffer.segment.length = buffer.capacity
  fits : buffer.capacity ≤ maxCapacity
  count : buffer.commandCount = commands.length
  position : buffer.position = 16 + (encodeCommands commands).length
  holds : ∃ old, Holds buffer.segment (encodeHeader old ++ encodeCommands commands)

/-- While a command is written: the segment holds the front, with room up to the limit. -/
structure Writing (before buffer : WorldCommandBuffer) (front : List Byte) (limit : Nat) : Prop where
  isOpen : buffer.isOpen = true
  size : buffer.segment.length = buffer.capacity
  fits : buffer.capacity ≤ maxCapacity
  count : buffer.commandCount = before.commandCount
  position : buffer.position = before.position
  holds : Holds buffer.segment front
  room : limit ≤ buffer.capacity

variable {before buffer : WorldCommandBuffer} {front bytes : List Byte} {limit offset : Nat}
  {commands : List WorldCommands.RawCommand}

theorem Writing.put (h : Writing before buffer front limit) (here : offset = front.length)
    (room : front.length + bytes.length ≤ limit) :
    ∃ next, put offset bytes buffer = .ok () next ∧ Writing before next (front ++ bytes) limit := by
  obtain ⟨segment, run, size, holds⟩ := h.holds.write (show front.length + bytes.length ≤ buffer.segment.length by
    rw [h.size]
    exact room.trans h.room)
  refine ⟨{ buffer with segment }, ?_, h.isOpen, size.trans h.size, h.fits, h.count, h.position, holds, h.room⟩
  unfold WorldCommandBuffer.put
  rw [Call.get_bind, here, run, Call.okOr_some_bind]
  rfl

/-! ### Growing -/

theorem grown_spec {fuel newCapacity required : Nat} (positive : 0 < newCapacity) (small : required ≤ maxCapacity)
    (enough : maxCapacity < newCapacity * 2 ^ fuel) :
    ∃ capacity, grown fuel newCapacity required = some capacity ∧ required ≤ capacity ∧
      (capacity ≤ maxCapacity ∨ capacity = newCapacity) := by
  induction fuel generalizing newCapacity with
  | zero =>
    rw [grown, if_neg (by simp at enough; omega)]
    exact ⟨newCapacity, rfl, by simp at enough; omega, Or.inr rfl⟩
  | succ fuel ih =>
    rw [grown]
    split
    · split
      · exact ⟨required, rfl, le_refl _, Or.inl small⟩
      · rename_i half
        obtain ⟨capacity, run, le, bound⟩ := @ih (newCapacity * 2) (by omega) (by
          rw [Nat.pow_succ] at enough
          rw [Nat.mul_assoc, Nat.mul_comm 2]
          exact enough)
        refine ⟨capacity, run, le, Or.inl ?_⟩
        rcases bound with bound | rfl
        · exact bound
        · unfold maxCapacity at half ⊢
          omega
    · exact ⟨newCapacity, rfl, by omega, Or.inr rfl⟩

theorem Encodes.front_le (h : Encodes buffer commands) : buffer.position ≤ buffer.capacity := by
  obtain ⟨old, holds⟩ := h.holds
  have := holds.length_le
  rw [List.length_append, length_encodeHeader] at this
  rw [h.position, ← h.size]
  exact this

theorem Encodes.ensureCapacity (h : Encodes buffer commands) (allocates : Bool) (additional : Nat) :
    (∃ e, ensureCapacity allocates additional buffer = .err e buffer) ∨
      ∃ next, ensureCapacity allocates additional buffer = .ok () next ∧ Encodes next commands ∧
        next.position = buffer.position ∧ next.commandCount = buffer.commandCount ∧
        buffer.position + additional ≤ next.capacity := by
  unfold WorldCommandBuffer.ensureCapacity
  rw [Call.get_bind]
  by_cases enough : buffer.position + additional ≤ buffer.capacity
  · rw [if_pos enough]
    exact Or.inr ⟨buffer, rfl, h, rfl, rfl, enough⟩
  · rw [if_neg enough]
    by_cases large : maxCapacity < buffer.position + additional
    · exact Or.inl ⟨_, Call.rejectIf_bind_pos large _⟩
    · rw [Call.rejectIf_bind_neg large]
      have front := h.front_le
      have start : 16 ≤ buffer.capacity := by
        have := h.position
        omega
      obtain ⟨capacity, run, le, bound⟩ := @grown_spec 32 buffer.capacity (buffer.position + additional)
        (by omega) (by omega) (by unfold maxCapacity; omega)
      rw [run, Call.expect_some_bind]
      unfold replaceBacking
      by_cases granted : allocates = false
      · exact Or.inl ⟨_, Call.rejectIf_bind_pos granted _⟩
      · rw [Call.rejectIf_bind_neg granted, Call.get_bind, Call.rejectIf_bind_neg (by rw [h.size]; omega)]
        obtain ⟨old, holds⟩ := h.holds
        have length : (encodeHeader old ++ encodeCommands commands).length = buffer.position := by
          rw [List.length_append, length_encodeHeader, h.position]
        obtain ⟨segment, copied, size, holds'⟩ := @Holds.copy _ _ holds capacity (by omega)
        rw [length] at copied
        rw [copied, Call.okOr_some_bind]
        refine Or.inr ⟨_, rfl, ⟨h.isOpen, size, ?_, h.count, h.position, old, holds'⟩, rfl, rfl, le⟩
        have := h.fits
        dsimp only
        omega

/-! ### Appending a command -/

/-- A call either throws and changes nothing, or appends the command. -/
def Appends (buffer : WorldCommandBuffer) (commands : List WorldCommands.RawCommand)
    (command : WorldCommands.RawCommand) (outcome : Outcome WorldCommandBuffer JavaException Unit) : Prop :=
  (∃ e, outcome = .err e buffer) ∨ ∃ next, outcome = .ok () next ∧ Encodes next (commands ++ [command])

theorem Encodes.begin (h : Encodes buffer commands) (allocates : Bool) (tag size : Nat) :
    (∃ e, beginCommand allocates tag size buffer = .err e buffer) ∨
      ∃ next old, beginCommand allocates tag size buffer = .ok (buffer.position + 6) next ∧
        Writing buffer next (encodeHeader old ++ (encodeCommands commands ++ (bytesOf 2 tag ++ bytesOf 4 size)))
          (buffer.position + 6 + size) := by
  unfold beginCommand requireOpen
  rw [Call.bind_bind, Call.get_bind, Call.rejectIf_bind_neg (by rw [h.isOpen]; decide)]
  rcases h.ensureCapacity allocates (commandHeaderSize + size) with ⟨e, throws⟩ | ⟨next, run, h', same, count, room⟩
  · exact Or.inl ⟨e, Call.bind_err throws⟩
  · rw [Call.bind_ok run, Call.get_bind]
    obtain ⟨old, holds⟩ := h'.holds
    have length : (encodeHeader old ++ encodeCommands commands).length = next.position := by
      rw [List.length_append, length_encodeHeader, h'.position]
    have writing : Writing buffer next (encodeHeader old ++ encodeCommands commands) (buffer.position + 6 + size) :=
      ⟨h'.isOpen, h'.size, h'.fits, count, same, holds, by unfold commandHeaderSize at room; omega⟩
    obtain ⟨tagged, run1, writing1⟩ := @Writing.put _ _ _ (bytesOf 2 tag) _ next.position writing length.symm (by
      rw [length_bytesOf]
      omega)
    obtain ⟨sized, run2, writing2⟩ := @Writing.put _ _ _ (bytesOf 4 size) _ (next.position + 2) writing1 (by
      rw [List.length_append, length_bytesOf, length]) (by
      rw [List.length_append, length_bytesOf, length_bytesOf]
      omega)
    rw [Call.bind_ok run1, Call.bind_ok run2]
    refine Or.inr ⟨sized, old, by rw [same]; rfl, ?_⟩
    simpa only [List.append_assoc] using writing2

/-- The bytes are written from the offset on. -/
def Writes (bytes : List Byte) (writes : Nat → Java Unit) : Prop :=
  ∀ (before writing : WorldCommandBuffer) (front : List Byte) (limit : Nat),
    Writing before writing front limit → front.length + bytes.length ≤ limit →
    ∃ next, writes front.length writing = .ok () next ∧ Writing before next (front ++ bytes) limit

theorem Writes.put (bytes : List Byte) : Writes bytes fun offset => put offset bytes :=
  fun _ _ _ _ writing room => writing.put rfl room

theorem Writes.u32 (value : JavaInt) : Writes (bytesOf 4 value.toNat) fun offset => writeU32 offset value :=
  Writes.put _

theorem Writes.seq {first second : List Byte} {offset : Nat} {f g : Nat → Java Unit} (hf : Writes first f)
    (length : offset = first.length) (hg : Writes second g) :
    Writes (first ++ second) (fun payload => f payload >>= fun _ => g (payload + offset)) := by
  intro before writing front limit h room
  rw [List.length_append] at room
  obtain ⟨middle, run, h'⟩ := hf before writing front limit h (by omega)
  obtain ⟨next, run', h''⟩ := hg before middle (front ++ first) limit h' (by rw [List.length_append]; omega)
  refine ⟨next, ?_, by rwa [← List.append_assoc]⟩
  rw [List.length_append, ← length] at run'
  show (f front.length >>= fun _ => g (front.length + offset)) writing = _
  rw [Call.bind_ok run]
  exact run'

theorem Encodes.append (h : Encodes buffer commands) (command : WorldCommands.RawCommand) (allocates : Bool)
    {tag size : Nat} {payload : List Byte} {writes program : Nat → Java Unit} (isTag : tag = tagOf command)
    (isPayload : payloadOf command = payload) (isSize : size = payload.length) (written : Writes payload writes)
    (isProgram : ∀ offset, program offset = writes offset >>= fun _ => finishCommand size) :
    Appends buffer commands command ((beginCommand allocates tag size >>= program) buffer) := by
  subst isTag isSize isPayload
  rcases h.begin allocates (tagOf command) (payloadOf command).length with ⟨e, throws⟩ | ⟨begun, old, run, writing⟩
  · exact Or.inl ⟨e, Call.bind_err throws⟩
  · rw [Call.bind_ok run]
    have length : (encodeHeader old ++ (encodeCommands commands ++
        (bytesOf 2 (tagOf command) ++ bytesOf 4 (payloadOf command).length))).length = buffer.position + 6 := by
      rw [List.length_append, List.length_append, List.length_append, length_encodeHeader, length_bytesOf,
        length_bytesOf, h.position]
      omega
    obtain ⟨next, run', writing'⟩ := written buffer begun _ _ writing (by rw [length])
    rw [length] at run'
    rw [isProgram, Call.bind_ok run']
    have total := length_encodeCommand command
    refine Or.inr ⟨_, rfl, writing'.isOpen, writing'.size, writing'.fits, ?_, ?_, old, ?_⟩
    · show next.commandCount + 1 = _
      rw [writing'.count, h.count, List.length_append, List.length_singleton]
    · show next.position + (commandHeaderSize + (payloadOf command).length) = _
      rw [writing'.position, h.position, encodeCommands, encodeCommands, List.flatMap_append, List.length_append,
        List.flatMap_singleton, total, commandHeaderSize, Nat.add_assoc]
    · have shape : encodeHeader old ++ encodeCommands (commands ++ [command]) =
          encodeHeader old ++ (encodeCommands commands ++
            (bytesOf 2 (tagOf command) ++ bytesOf 4 (payloadOf command).length)) ++ payloadOf command := by
        simp [encodeCommands, encodeCommand]
      rw [shape]
      exact writing'.holds

/-! ### The calls -/

/-- The command a call asks for. -/
def BufferCall.command : BufferCall → Option WorldCommands.RawCommand
  | .addWire wireId => (nonZeroId? wireId.toNat).map .addWire
  | .removeWire wireId => (nonZeroId? wireId.toNat).map .removeWire
  | .connectWires wireAId wireBId => do
    let wireA ← nonZeroId? wireAId.toNat
    let wireB ← nonZeroId? wireBId.toNat
    some (.connectWires wireA wireB)
  | .disconnectWires wireAId wireBId => do
    let wireA ← nonZeroId? wireAId.toNat
    let wireB ← nonZeroId? wireBId.toNat
    some (.disconnectWires wireA wireB)
  | .addDevice deviceId definitionId => do
    let device ← nonZeroId? deviceId.toNat
    let definition ← nonZeroId? definitionId.toNat
    some (.addDevice device definition)
  | .removeDevice deviceId => (nonZeroId? deviceId.toNat).map .removeDevice
  | .attachTerminal wireId deviceId terminalId => do
    let wire ← nonZeroId? wireId.toNat
    let device ← nonZeroId? deviceId.toNat
    let terminal ← Id.ofIndex? terminalId.toNat
    some (.attachTerminal wire device terminal)
  | .detachTerminal wireId deviceId terminalId => do
    let wire ← nonZeroId? wireId.toNat
    let device ← nonZeroId? deviceId.toNat
    let terminal ← Id.ofIndex? terminalId.toNat
    some (.detachTerminal wire device terminal)
  | .setDeviceParameter deviceId parameterId value => do
    let device ← nonZeroId? deviceId.toNat
    let parameter ← Id.ofIndex? parameterId.toNat
    some (.setDeviceParameter device parameter value)
  | .clear | .encodedSegment | .close => none

/-- A call either throws and changes nothing, or appends the command it asks for. -/
def Accepts (buffer : WorldCommandBuffer) (commands : List WorldCommands.RawCommand) (call : BufferCall)
    (outcome : Outcome WorldCommandBuffer JavaException Unit) : Prop :=
  (∃ e, outcome = .err e buffer) ∨
    ∃ next command, outcome = .ok () next ∧ call.command = some command ∧ Encodes next (commands ++ [command])

variable {call : BufferCall}

/-- A check that throws, or is passed. -/
theorem Accepts.require {condition : Prop} [Decidable condition] {e : JavaException} {rest : Unit → Java Unit}
    (passed : ¬ condition → Accepts buffer commands call (rest () buffer)) :
    Accepts buffer commands call ((Call.rejectIf condition e >>= rest) buffer) := by
  by_cases fails : condition
  · exact Or.inl ⟨e, Call.rejectIf_bind_pos fails _⟩
  · rw [Call.rejectIf_bind_neg fails]
    exact passed fails

theorem Appends.accepts {command : WorldCommands.RawCommand} {outcome : Outcome WorldCommandBuffer JavaException Unit}
    (h : Appends buffer commands command outcome) (known : call.command = some command) :
    Accepts buffer commands call outcome := by
  rcases h with throws | ⟨next, run, encodes⟩
  · exact Or.inl throws
  · exact Or.inr ⟨next, command, run, known, encodes⟩

/-- The id a nonzero number stands for. -/
theorem nonZeroId_of_ne_zero {kind : NonZeroIdKind} {value : JavaInt} (nonzero : ¬ value = 0) :
    ∃ id : NonZeroId kind, nonZeroId? value.toNat = some id ∧ id.get = value.toNat := by
  have fits : value.toNat < 2 ^ 32 := value.isLt
  have pos : 0 < value.toNat := by
    by_contra zero
    exact nonzero (BitVec.eq_of_toNat_eq (by simpa using zero))
  exact ⟨⟨_, pos, fits⟩, by rw [nonZeroId?, dif_pos ⟨pos, fits⟩], rfl⟩

theorem nonZeroId_of_positive {kind : NonZeroIdKind} {value : JavaInt} (positive : ¬ value.toInt ≤ 0) :
    ∃ id : NonZeroId kind, nonZeroId? value.toNat = some id ∧ id.get = value.toNat := by
  refine nonZeroId_of_ne_zero ?_
  rintro rfl
  exact positive (by decide)

theorem id_of_int {kind : IdKind} (bound : kind.bound = 2 ^ 32) (value : JavaInt) :
    ∃ id : Id kind, Id.ofIndex? value.toNat = some id ∧ id.id = value.toNat := by
  have fits : value.toNat < kind.bound := bound ▸ value.isLt
  exact ⟨⟨_, fits⟩, Id.ofIndex?_eq_some.mpr rfl, rfl⟩

theorem Encodes.addWire (h : Encodes buffer commands) (allocates : Bool) (wireId : JavaInt) :
    Accepts buffer commands (.addWire wireId) (addWire allocates wireId buffer) := by
  refine Accepts.require fun positive => ?_
  obtain ⟨wire, known, get⟩ := nonZeroId_of_positive positive
  refine Appends.accepts (h.append (.addWire wire) allocates rfl ?_ ?_ (Writes.u32 wireId) fun _ => rfl)
    (by rw [BufferCall.command, known, Option.map_some])
  · rw [payloadOf, get]
  · rw [length_bytesOf]

theorem Encodes.removeWire (h : Encodes buffer commands) (allocates : Bool) (wireId : JavaInt) :
    Accepts buffer commands (.removeWire wireId) (removeWire allocates wireId buffer) := by
  refine Accepts.require fun positive => ?_
  obtain ⟨wire, known, get⟩ := nonZeroId_of_positive positive
  refine Appends.accepts (h.append (.removeWire wire) allocates rfl ?_ ?_ (Writes.u32 wireId) fun _ => rfl)
    (by rw [BufferCall.command, known, Option.map_some])
  · rw [payloadOf, get]
  · rw [length_bytesOf]

theorem Encodes.removeDevice (h : Encodes buffer commands) (allocates : Bool) (deviceId : JavaInt) :
    Accepts buffer commands (.removeDevice deviceId) (removeDevice allocates deviceId buffer) := by
  refine Accepts.require fun positive => ?_
  obtain ⟨device, known, get⟩ := nonZeroId_of_positive positive
  refine Appends.accepts (h.append (.removeDevice device) allocates rfl ?_ ?_ (Writes.u32 deviceId) fun _ => rfl)
    (by rw [BufferCall.command, known, Option.map_some])
  · rw [payloadOf, get]
  · rw [length_bytesOf]

/-- Two numbers of four bytes. -/
theorem Writes.u32_pair (first second : JavaInt) : Writes (bytesOf 4 first.toNat ++ bytesOf 4 second.toNat)
    (fun payload => writeU32 payload first >>= fun _ => writeU32 (payload + 4) second) :=
  (Writes.u32 first).seq (by rw [length_bytesOf]) (Writes.u32 second)

theorem Encodes.connectWires (h : Encodes buffer commands) (allocates : Bool) (wireAId wireBId : JavaInt) :
    Accepts buffer commands (.connectWires wireAId wireBId) (connectWires allocates wireAId wireBId buffer) := by
  refine Accepts.require fun first => Accepts.require fun second => ?_
  obtain ⟨wireA, known, get⟩ := nonZeroId_of_positive first
  obtain ⟨wireB, known', get'⟩ := nonZeroId_of_positive second
  refine Appends.accepts (h.append (.connectWires wireA wireB) allocates rfl ?_ ?_ (Writes.u32_pair wireAId wireBId)
    fun _ => funext fun _ => Call.bind_bind.symm) ?_
  · rw [payloadOf, get, get']
  · rw [List.length_append, length_bytesOf, length_bytesOf]
  · rw [BufferCall.command, known, known']
    rfl

theorem Encodes.disconnectWires (h : Encodes buffer commands) (allocates : Bool) (wireAId wireBId : JavaInt) :
    Accepts buffer commands (.disconnectWires wireAId wireBId)
      (disconnectWires allocates wireAId wireBId buffer) := by
  refine Accepts.require fun first => Accepts.require fun second => ?_
  obtain ⟨wireA, known, get⟩ := nonZeroId_of_positive first
  obtain ⟨wireB, known', get'⟩ := nonZeroId_of_positive second
  refine Appends.accepts (h.append (.disconnectWires wireA wireB) allocates rfl ?_ ?_ (Writes.u32_pair wireAId wireBId)
    fun _ => funext fun _ => Call.bind_bind.symm) ?_
  · rw [payloadOf, get, get']
  · rw [List.length_append, length_bytesOf, length_bytesOf]
  · rw [BufferCall.command, known, known']
    rfl

theorem Encodes.addDevice (h : Encodes buffer commands) (allocates : Bool) (deviceId definitionId : JavaInt) :
    Accepts buffer commands (.addDevice deviceId definitionId)
      (addDevice allocates deviceId definitionId buffer) := by
  refine Accepts.require fun first => Accepts.require fun second => ?_
  obtain ⟨device, known, get⟩ := nonZeroId_of_positive first
  obtain ⟨definition, known', get'⟩ := nonZeroId_of_ne_zero second
  refine Appends.accepts (h.append (.addDevice device definition) allocates rfl ?_ ?_ (Writes.u32_pair deviceId definitionId)
    fun _ => funext fun _ => Call.bind_bind.symm) ?_
  · rw [payloadOf, get, get']
  · rw [List.length_append, length_bytesOf, length_bytesOf]
  · rw [BufferCall.command, known, known']
    rfl

theorem Encodes.attachTerminal (h : Encodes buffer commands) (allocates : Bool) (wireId deviceId terminalId : JavaInt) :
    Accepts buffer commands (.attachTerminal wireId deviceId terminalId)
      (attachTerminal allocates wireId deviceId terminalId buffer) := by
  refine Accepts.require fun first => Accepts.require fun second => Accepts.require fun _ => ?_
  obtain ⟨wire, known, get⟩ := nonZeroId_of_positive first
  obtain ⟨device, known', get'⟩ := nonZeroId_of_positive second
  obtain ⟨terminal, known'', get''⟩ := @id_of_int .terminal rfl terminalId
  refine Appends.accepts (h.append (.attachTerminal wire device terminal) allocates rfl ?_ ?_
    ((Writes.u32_pair wireId deviceId).seq ?_ (Writes.u32 terminalId))
    fun _ => funext fun _ => by rw [Call.bind_bind, Call.bind_bind]) ?_
  · rw [payloadOf, get, get', get'', ← List.append_assoc]
  · simp only [List.length_append, length_bytesOf]
  · rw [List.length_append, length_bytesOf, length_bytesOf]
  · rw [BufferCall.command, known, known', known'']
    rfl

theorem Encodes.detachTerminal (h : Encodes buffer commands) (allocates : Bool) (wireId deviceId terminalId : JavaInt) :
    Accepts buffer commands (.detachTerminal wireId deviceId terminalId)
      (detachTerminal allocates wireId deviceId terminalId buffer) := by
  refine Accepts.require fun first => Accepts.require fun second => Accepts.require fun _ => ?_
  obtain ⟨wire, known, get⟩ := nonZeroId_of_positive first
  obtain ⟨device, known', get'⟩ := nonZeroId_of_positive second
  obtain ⟨terminal, known'', get''⟩ := @id_of_int .terminal rfl terminalId
  refine Appends.accepts (h.append (.detachTerminal wire device terminal) allocates rfl ?_ ?_
    ((Writes.u32_pair wireId deviceId).seq ?_ (Writes.u32 terminalId))
    fun _ => funext fun _ => by rw [Call.bind_bind, Call.bind_bind]) ?_
  · rw [payloadOf, get, get', get'', ← List.append_assoc]
  · simp only [List.length_append, length_bytesOf]
  · rw [List.length_append, length_bytesOf, length_bytesOf]
  · rw [BufferCall.command, known, known', known'']
    rfl

theorem Encodes.setDeviceParameter (h : Encodes buffer commands) (allocates : Bool)
    (deviceId parameterId : JavaInt) (value : JavaDouble) :
    Accepts buffer commands (.setDeviceParameter deviceId parameterId value)
      (setDeviceParameter allocates deviceId parameterId value buffer) := by
  refine Accepts.require fun first => Accepts.require fun _ => Accepts.require fun _ => ?_
  obtain ⟨device, known, get⟩ := nonZeroId_of_positive first
  obtain ⟨parameter, known', get'⟩ := @id_of_int .parameter rfl parameterId
  refine Appends.accepts (h.append (.setDeviceParameter device parameter value) allocates rfl ?_ ?_
    ((Writes.u32_pair deviceId parameterId).seq ?_ (Writes.put (bytesOf 8 value.toNat)))
    fun _ => funext fun _ => by rw [Call.bind_bind, Call.bind_bind]) ?_
  · rw [payloadOf, get, get', ← List.append_assoc]
  · simp only [List.length_append, length_bytesOf]
  · rw [List.length_append, length_bytesOf, length_bytesOf]
  · rw [BufferCall.command, known, known']
    rfl

end WorldCommandBuffer

end Hynergy
