import Hynergy.Client.WorldBatches

/-!
# Ids of a world

Any sequence of operations on a world, with stale handles and failed appends, and definitions
registered in between.
-/

namespace Hynergy

open Lib Relation

variable {F : Type}

namespace ElectricalWorld

open WorldCommandBuffer (Encodes)
open WorldCommands (RawCommand Applied applyTo applyWorldCommandBuffer encodeBuffer encodeHeader)

inductive Operation (F : Type) where
  | addWire (grants : Grants)
  | addDevice (grants : Grants) (definitionId : JavaInt)
  | requireWire (id : WireHandle)
  | wireGeneration (wireId : JavaInt)
  | deviceGeneration (deviceId : JavaInt)
  | removeWire (grants : Grants) (wireId : WireHandle)
  | removeDevice (grants : Grants) (deviceId generation : JavaInt)
  | connectWires (grants : Grants) (wireAId wireBId : WireHandle)
  | disconnectWires (grants : Grants) (wireAId wireBId : WireHandle)
  | attachTerminal (grants : Grants) (wireId : WireHandle) (deviceId deviceGeneration terminalId : JavaInt)
  | detachTerminal (grants : Grants) (wireId : WireHandle) (deviceId deviceGeneration terminalId : JavaInt)
  | setDeviceParameter (grants : Grants) (deviceId deviceGeneration parameterId : JavaInt) (value : JavaDouble)
  | applyCommands (grants : Grants)
  | tick (grants : Grants) (answers : TickAnswers F)
  | subscribeObserver (grants : Grants) (deviceId deviceGeneration observerId : JavaInt)
  | unsubscribe (grants : Grants) (subscriptionId : JavaInt)

variable [F64 F]

/-- The call, its value dropped. -/
def Operation.run (definitions : DefinitionRegistry F) (fromBits : BitVec 64 → F) : Operation F → WorldCall F Unit
  | .addWire grants => do
    let _id ← ElectricalWorld.addWire grants
  | .addDevice grants definitionId => do
    let _id ← ElectricalWorld.addDevice grants definitionId
  | .requireWire id => ElectricalWorld.requireWire id
  | .wireGeneration wireId => do
    let _generation ← ElectricalWorld.wireGeneration wireId
  | .deviceGeneration deviceId => do
    let _generation ← ElectricalWorld.deviceGeneration deviceId
  | .removeWire grants wireId => ElectricalWorld.removeWire grants wireId
  | .removeDevice grants deviceId generation => ElectricalWorld.removeDevice grants deviceId generation
  | .connectWires grants wireAId wireBId => ElectricalWorld.connectWires grants wireAId wireBId
  | .disconnectWires grants wireAId wireBId => ElectricalWorld.disconnectWires grants wireAId wireBId
  | .attachTerminal grants wireId deviceId generation terminalId =>
    ElectricalWorld.attachTerminal grants wireId deviceId generation terminalId
  | .detachTerminal grants wireId deviceId generation terminalId =>
    ElectricalWorld.detachTerminal grants wireId deviceId generation terminalId
  | .setDeviceParameter grants deviceId generation parameterId value =>
    ElectricalWorld.setDeviceParameter grants deviceId generation parameterId value
  | .applyCommands grants => ElectricalWorld.applyCommands definitions fromBits grants
  | .tick grants answers => do
    let _recordCount ← ElectricalWorld.tick definitions fromBits grants answers
  | .subscribeObserver grants deviceId generation observerId => do
    let _id ← ElectricalWorld.subscribeObserver definitions fromBits grants deviceId generation observerId
  | .unsubscribe grants subscriptionId => ElectricalWorld.unsubscribe definitions fromBits grants subscriptionId

/-- An operation that returns or throws without a failure of the engine: the batches it applies are
accepted. -/
inductive Step (fromBits : BitVec 64 → F) :
    DefinitionRegistry F × ElectricalWorld F → DefinitionRegistry F × ElectricalWorld F → Prop
  | register {registry next : DefinitionRegistry F} {world : ElectricalWorld F} (extends' : next.Extends registry)
      (reached : next.Reached) : Step fromBits (registry, world) (next, world)
  | returns {registry : DefinitionRegistry F} {world after : ElectricalWorld F} (operation : Operation F)
      (run : operation.run registry fromBits world = .ok () after) : Step fromBits (registry, world) (registry, after)
  | throws {registry : DefinitionRegistry F} {world after : ElectricalWorld F} (operation : Operation F)
      {error : WorldException} (run : operation.run registry fromBits world = .err error after)
      (accepted : error.isEngineFailure = false) : Step fromBits (registry, world) (registry, after)

/-- The worlds that a new one leads to. -/
def Reached (fromBits : BitVec 64 → F) (registry : DefinitionRegistry F) (world : ElectricalWorld F) : Prop :=
  ∃ (start : DefinitionRegistry F) (commandBuffer : WorldCommandBuffer) (granted : Bool), start.Reached ∧
    WorldCommandBuffer.new (BitVec.ofNat 32 WorldCommandBuffer.defaultCapacity) granted = .ok () commandBuffer ∧
    ReflTransGen (Step fromBits) (start, { commandBuffer }) (registry, world)

/-- The world an operation leaves; `none` where the engine fails. -/
def perform (definitions : DefinitionRegistry F) (fromBits : BitVec 64 → F) (world : ElectricalWorld F)
    (operation : Operation F) : Option (ElectricalWorld F) :=
  match operation.run definitions fromBits world with
  | .ok _ after => some after
  | .err error after => if error.isEngineFailure = true then none else some after
  | .panic => none

variable {registry : DefinitionRegistry F} {fromBits : BitVec 64 → F} {self after : ElectricalWorld F}
  {commands : List RawCommand}

theorem Reached.performed (h : Reached fromBits registry self) {operations : List (Operation F)}
    (run : operations.foldlM (perform registry fromBits) self = some after) : Reached fromBits registry after := by
  induction operations generalizing self with
  | nil =>
    obtain rfl := Option.some.inj run
    exact h
  | cons operation rest ih =>
    rw [List.foldlM_cons] at run
    obtain ⟨mid, first, run⟩ := Option.bind_eq_some_iff.mp run
    obtain ⟨start, commandBuffer, granted, known, new, steps⟩ := h
    refine ih ⟨start, commandBuffer, granted, known, new, steps.tail ?_⟩ run
    unfold perform at first
    split at first
    · rename_i returns
      obtain rfl := Option.some.inj first
      exact .returns operation returns
    · rename_i throws
      split at first
      · cases first
      · rename_i accepted
        obtain rfl := Option.some.inj first
        exact .throws operation throws (Bool.eq_false_iff.mpr accepted)
    · cases first

omit [F64 F] in
theorem generation_keeps (h : Pending self commands) {call : WorldIdAllocator.Java JavaInt}
    (reads : ∀ allocator, (∃ e, call allocator = .err e allocator) ∨ ∃ g, call allocator = .ok g allocator) :
    Settles self commands [] (onWires call self) ∧ Settles self commands [] (onDevices call self) := by
  constructor
  · rcases reads self.wireIds with ⟨e, run⟩ | ⟨g, run⟩
    · exact .of_err h (Call.zoom_err run)
    · exact .of_ok h (Call.zoom_ok run)
  · rcases reads self.deviceIds with ⟨e, run⟩ | ⟨g, run⟩
    · exact .of_err h (Call.zoom_err run)
    · exact .of_ok h (Call.zoom_ok run)

end ElectricalWorld

namespace WorldIdAllocator

/-- Asking for a generation changes nothing. -/
theorem generation_reads (id : JavaInt) (self : WorldIdAllocator) :
    (∃ e, generation id self = .err e self) ∨ ∃ g, generation id self = .ok g self := by
  unfold generation requireKnownId
  rw [Call.bind_bind, Call.get_bind]
  by_cases outside : id.toInt ≤ 0 ∨ (self.highWaterMark : Int) < id.toInt
  · exact Or.inl ⟨_, Call.bind_err (Call.rejectIf_bind_pos outside _)⟩
  rw [Call.bind_bind, Call.rejectIf_bind_neg outside, Call.bind_bind]
  unfold WorldIdAllocator.state
  rw [Call.bind_bind, Call.get_bind]
  cases known : self.states[id.toNat - 1]? with
  | none => exact Or.inl ⟨_, rfl⟩
  | some state =>
    rw [Call.okOr_some_bind, Call.bind_bind]
    by_cases unused : state = .unused
    · exact Or.inl ⟨_, Call.rejectIf_bind_pos unused _⟩
    rw [Call.rejectIf_bind_neg unused, Call.pure_bind']
    unfold generationAt
    rw [Call.get_bind]
    cases self.generations[id.toNat - 1]? with
    | none => exact Or.inl ⟨_, rfl⟩
    | some g => exact Or.inr ⟨g, rfl⟩

end WorldIdAllocator

namespace ElectricalWorld

open WorldCommandBuffer (Encodes)
open WorldCommands (RawCommand Applied applyTo applyWorldCommandBuffer encodeBuffer encodeHeader)

variable [F64 F] {registry : DefinitionRegistry F} {fromBits : BitVec 64 → F} {self after : ElectricalWorld F}
  {commands : List RawCommand}

theorem Keeps.dropped {α : Type} {call : WorldCall F α} (keeps : Keeps registry (call self)) :
    Keeps registry ((do let _value ← call : WorldCall F Unit) self) :=
  Call.meets_bind (keeps.mono id (fun _ _ tracks => tracks) fun _ _ failed => failed)

theorem Tracks.keeps (h : Tracks registry self commands) (operation : Operation F) :
    Keeps registry (operation.run registry fromBits self) := by
  have pending := h.pending
  have usable := requireUsable_run pending.usable
  cases operation with
  | addWire grants => exact Keeps.dropped ((addWire_settles pending grants).keeps h)
  | addDevice grants definitionId => exact Keeps.dropped ((addDevice_settles pending grants definitionId).keeps h)
  | requireWire id =>
    refine @Settles.keeps _ _ _ _ _ _ h [] _ ?_
    show Settles self commands [] ((requireUsable >>= fun _ => onWires _) self)
    rw [Call.bind_ok usable]
    rcases WorldIdAllocator.requireUsable_spec pending.wires id.value id.generation with ⟨e, run⟩ | ⟨run, -⟩
    · exact .of_err pending (Call.zoom_err run)
    · exact .of_ok pending (Call.zoom_ok run)
  | wireGeneration wireId =>
    refine Keeps.dropped (@Settles.keeps _ _ _ _ _ _ h [] _ ?_)
    unfold wireGeneration
    rw [Call.bind_ok usable]
    exact (generation_keeps pending (WorldIdAllocator.generation_reads wireId)).1
  | deviceGeneration deviceId =>
    refine Keeps.dropped (@Settles.keeps _ _ _ _ _ _ h [] _ ?_)
    unfold deviceGeneration
    rw [Call.bind_ok usable]
    exact (generation_keeps pending (WorldIdAllocator.generation_reads deviceId)).2
  | removeWire grants wireId => exact (removeWire_settles pending grants wireId).keeps h
  | removeDevice grants deviceId generation => exact (removeDevice_settles pending grants deviceId generation).keeps h
  | connectWires grants wireAId wireBId => exact (connectWires_settles pending grants wireAId wireBId).keeps h
  | disconnectWires grants wireAId wireBId => exact (disconnectWires_settles pending grants wireAId wireBId).keeps h
  | attachTerminal grants wireId deviceId deviceGeneration terminalId =>
    exact (attachTerminal_settles pending grants wireId deviceId deviceGeneration terminalId).keeps h
  | detachTerminal grants wireId deviceId deviceGeneration terminalId =>
    exact (detachTerminal_settles pending grants wireId deviceId deviceGeneration terminalId).keeps h
  | setDeviceParameter grants deviceId deviceGeneration parameterId value =>
    exact (setDeviceParameter_settles pending grants deviceId deviceGeneration parameterId value).keeps h
  | applyCommands grants =>
    exact (applyCommands_spec h grants).mono id (fun _ _ done => ⟨[], done.1⟩)
      fun _ _ failed => failed.imp_right fun leads => ⟨commands, h.leads leads⟩
  | tick grants answers => exact Keeps.dropped (tick_keeps h grants answers)
  | subscribeObserver grants deviceId deviceGeneration observerId =>
    exact Keeps.dropped (subscribeObserver_keeps h grants deviceId deviceGeneration observerId)
  | unsubscribe grants subscriptionId => exact unsubscribe_keeps h grants subscriptionId

theorem Tracks.new {commandBuffer : WorldCommandBuffer} {granted : Bool} (known : registry.Reached)
    (run : WorldCommandBuffer.new (BitVec.ofNat 32 WorldCommandBuffer.defaultCapacity) granted = .ok () commandBuffer) :
    Tracks registry { commandBuffer } [] := by
  rcases WorldCommandBuffer.new_cases (BitVec.ofNat 32 WorldCommandBuffer.defaultCapacity) granted with
    ⟨-, e, closed, throws⟩ | ⟨buffer, run', encodes⟩
  · cases throws.symm.trans run
  obtain ⟨-, rfl⟩ := Outcome.ok.inj (run'.symm.trans run)
  have empty : ∀ id, ¬ (({} : WorldIdAllocator).look id = some .live ∨
      ({} : WorldIdAllocator).look id = some .pendingRemove ∨ ({} : WorldIdAllocator).look id = some .pendingAdd) := by
    intro id
    unfold WorldIdAllocator.look
    split
    · simp
    · rw [List.getElem?_replicate]
      split <;> simp
  have same : IdPool.Same ({} : WorldIdAllocator).committedPool ({} : WorldIdAllocator).currentPool := by
    refine ⟨rfl, fun id => iff_of_false ?_ ?_⟩
    · rintro (live | adding)
      · exact empty id (Or.inl live)
      · exact empty id (Or.inr (Or.inr adding))
    · rintro (live | removing)
      · exact empty id (Or.inl live)
      · exact empty id (Or.inr (Or.inl removing))
  have nothing : ∀ id, ¬ ({} : WorldIdAllocator).committedPool.live id := by
    rintro id (live | removing)
    · exact empty id (Or.inl live)
    · exact empty id (Or.inr (Or.inl removing))
  refine ⟨⟨rfl, WorldIdAllocator.sound_new, WorldIdAllocator.sound_new, encodes, .nil same, .nil same, Nat.zero_le _⟩,
    ⟨registry, known, .refl⟩, ⟨rfl, fun id => iff_of_false ?_ (nothing id)⟩,
    ⟨rfl, fun id => iff_of_false ?_ (nothing id)⟩⟩
  · rintro ⟨wire, -, live⟩
    cases live
  · rintro ⟨device, -, live⟩
    cases live

theorem Tracks.register {next : DefinitionRegistry F} (h : Tracks registry self commands)
    (extends' : next.Extends registry) (reached : next.Reached) : Tracks next self commands := by
  obtain ⟨start, known, run⟩ := h.reached
  exact ⟨h.pending, ⟨start, known, run.tail (.register extends' reached)⟩, h.wirePool, h.devicePool⟩

theorem Tracks.step {next : DefinitionRegistry F} (h : Tracks registry self commands)
    (step : Step fromBits (registry, self) (next, after)) : ∃ commands, Tracks next after commands := by
  cases step with
  | register extends' reached => exact ⟨commands, h.register extends' reached⟩
  | returns operation run =>
    have keeps := @Tracks.keeps _ _ _ fromBits _ _ h operation
    rw [run] at keeps
    exact keeps
  | throws operation run accepted =>
    have keeps := @Tracks.keeps _ _ _ fromBits _ _ h operation
    rw [run] at keeps
    rcases keeps with failed | keeps
    · cases accepted.symm.trans failed
    · exact keeps

theorem Reached.tracks (h : Reached fromBits registry self) : ∃ commands, Tracks registry self commands := by
  obtain ⟨start, commandBuffer, granted, known, new, run⟩ := h
  suffices ∀ state, ReflTransGen (Step fromBits) (start, { commandBuffer }) state →
      ∃ commands, Tracks state.1 state.2 commands from this _ run
  intro state run
  induction run with
  | refl => exact ⟨[], .new known new⟩
  | tail _ step ih =>
    obtain ⟨commands, tracks⟩ := ih
    exact tracks.step step

/-- In every session whose batches the engine accepts, each pending command is admitted where it is
applied, no batch is refused for an id, and once a batch is committed the ids that live on the
client are the resident ones. -/
theorem client_ids_track_network (h : Reached fromBits registry self) :
    ∃ commands, Encodes self.commandBuffer commands ∧ self.poisoned = false ∧
      (∀ first command rest mid, commands = first ++ command :: rest →
        Applied (applyTo registry fromBits) first self.world mid → (command.map fromBits).Admitted mid.network) ∧
      (∀ error after, applyWorldCommandBuffer registry fromBits true (encodeBuffer commands) self.world = .err error after →
        error.kind.isIdValidation = false) ∧
      ∀ grants after, applyCommands registry fromBits grants self = .ok () after → Exact after := by
  obtain ⟨commands, tracks⟩ := h.tracks
  refine ⟨commands, tracks.pending.encodes, tracks.pending.usable, ?_, fun error after => tracks.refused, ?_⟩
  · intro first command rest mid split applied
    exact tracks.admitted split applied
  · intro grants after run
    have applied := @applyCommands_spec _ _ _ fromBits _ _ tracks grants
    rw [run] at applied
    exact applied.1.exact

set_option maxRecDepth 8000 in
/-- Two wires and fifteen devices are added and the second wire is removed; one more wire and the
removal of the first do not fit the buffer and are rolled back. After the commit the id of the
second wire is reserved again and a device is removed; that batch is committed as well. -/
theorem client_ids_track_network_session : ∃ self after : ElectricalWorld Float,
    Reached (fun bits => .ofBits ⟨bits⟩) .new self ∧
    self.wireIds.look 1 = some .live ∧ self.wireIds.look 2 = some .pendingAdd ∧ self.deviceIds.look 1 = some .pendingRemove ∧
    applyCommands .new (fun bits => .ofBits ⟨bits⟩) (.granted true) self = .ok () after ∧ Exact after ∧
    after.wireIds.look 2 = some .live ∧ after.deviceIds.look 1 = some .free := by
  have session : (([.addWire (.granted false), .addWire (.granted false), .removeWire (.granted false) ⟨2, 1⟩] ++
      List.replicate 15 (.addDevice (.granted false) 1) ++ [.addWire (.granted false), .removeWire (.granted false) ⟨1, 1⟩,
        .applyCommands (.granted false), .addWire (.granted false), .removeDevice (.granted false) 1 1] :
        List (Operation Float)).foldlM (perform .new fun bits => .ofBits ⟨bits⟩)
      { commandBuffer := ⟨true, encodeHeader 0 ++ List.replicate 240 0, 256, 16, 0⟩ }).any (fun self =>
        decide (self.wireIds.look 1 = some .live ∧ self.wireIds.look 2 = some .pendingAdd ∧
          self.deviceIds.look 1 = some .pendingRemove) &&
        (applyCommands .new (fun bits => .ofBits ⟨bits⟩) (.granted true) self).returned.any fun committed =>
          decide (committed.2.wireIds.look 2 = some .live ∧ committed.2.deviceIds.look 1 = some .free)) = true := by
    decide +kernel
  obtain ⟨self, run, holds⟩ := (Option.any_eq_true _ _).mp session
  rw [Bool.and_eq_true, decide_eq_true_iff, Option.any_eq_true] at holds
  obtain ⟨⟨live, adding, removing⟩, ⟨value, after⟩, commits, states⟩ := holds
  obtain ⟨wire, device⟩ := of_decide_eq_true states
  have reached : Reached (fun bits => .ofBits ⟨bits⟩) .new self :=
    .performed ⟨.new, _, true, .new, rfl, .refl⟩ run
  obtain ⟨commands, -, -, -, -, exact'⟩ := client_ids_track_network reached
  have commits := Outcome.of_returned commits
  exact ⟨self, after, reached, live, adding, removing, commits, exact' _ after commits, wire, device⟩

end ElectricalWorld

end Hynergy
