import Hynergy.Client.WorldSession

/-!
# Batches of a world

The pending commands are applied as one batch. Each is admitted where it is applied, and once the
batch is through, the ids that live on the client are the resident ones.
-/

namespace Hynergy

open Lib

variable {F : Type}

/-- Whether the error says that an id is not valid. -/
def WorldCommandErrorKind.isIdValidation : WorldCommandErrorKind → Bool
  | .invalidId | .idOutOfBound | .idExceeds31Bit | .idAlreadyAssigned | .idNotAssigned => true
  | _ => false

theorem kindOfModelError_isIdValidation (error : NetworkModelError) :
    (WorldCommands.kindOfModelError error).isIdValidation = error.isIdValidation := by cases error <;> rfl

/-- Whether the engine has failed; afterwards the world is poisoned. -/
def WorldException.isEngineFailure : WorldException → Bool
  | .commandsFailed _ | .commandsPanicked | .tickFailed _ | .tickPanicked | .subscriptionPanicked => true
  | _ => false

namespace WorldIdAllocator

variable {self : WorldIdAllocator}

/-- Where nothing is pending, the committed ids are those in state live. -/
theorem live_iff_committed (same : IdPool.Same self.committedPool self.currentPool) (id : Nat) :
    self.look id = some .live ↔ self.committedPool.live id := by
  constructor
  · exact Or.inl
  · rintro (live | removing)
    · exact live
    · rcases (same.live id).mpr (Or.inr removing) with live | adding
      · exact live
      · cases removing.symm.trans adding

end WorldIdAllocator

namespace WorldCommands

variable [F64 F] {registry : DefinitionRegistry F} {fromBits : BitVec 64 → F} {s t : Stores F}

/-- Applied commands move the pools as their uses say. -/
theorem Applied.moves {commands : List RawCommand} (applied : Applied (applyTo registry fromBits) commands s t)
    (reached : Stores.WorldReached registry s) :
    IdPool.Same ((commands.flatMap WorldCommand.wireUses).foldl IdPool.apply s.network.wirePool) t.network.wirePool ∧
      IdPool.Same ((commands.flatMap WorldCommand.deviceUses).foldl IdPool.apply s.network.devicePool)
        t.network.devicePool := by
  induction applied with
  | nil => exact ⟨.refl _, .refl _⟩
  | cons first rest ih =>
    have moves := Stores.applyCommand_moves reached.sound.2.consistent (applyTo_ok first)
    have wires := moves.wires
    have devices := moves.devices
    rw [WorldCommand.wireUses_map] at wires
    rw [WorldCommand.deviceUses_map] at devices
    obtain ⟨wires', devices'⟩ := ih ((Applied.cons first .nil).reached reached)
    rw [List.flatMap_cons, List.foldl_append, List.flatMap_cons, List.foldl_append]
    exact ⟨(wires.foldl _).trans wires', (devices.foldl _).trans devices'⟩

end WorldCommands

namespace ElectricalWorld

open WorldCommandBuffer (BufferCall Encodes Accepts)
open WorldCommands (RawCommand Applied applyTo applyWorldCommandBuffer encodeBuffer)
open WorldIdAllocator (committedPool currentPool Kept)

/-- The committed pools are those of the network. -/
structure Tracks [F64 F] (registry : DefinitionRegistry F) (world : ElectricalWorld F) (commands : List RawCommand) :
    Prop where
  pending : Pending world commands
  reached : Stores.WorldReached registry world.world
  wirePool : IdPool.Same world.wireIds.committedPool world.world.network.wirePool
  devicePool : IdPool.Same world.deviceIds.committedPool world.world.network.devicePool

variable [F64 F] {registry : DefinitionRegistry F} {fromBits : BitVec 64 → F} {self after : ElectricalWorld F}
  {commands later : List RawCommand}

theorem Tracks.leads (h : Tracks registry self commands) (leads : Leads self after later) :
    Tracks registry after later :=
  ⟨leads.pending, leads.world.symm ▸ h.reached, leads.world.symm ▸ leads.wirePool.symm.trans h.wirePool,
    leads.world.symm ▸ leads.devicePool.symm.trans h.devicePool⟩

/-- Every pending command is admitted where it is applied. -/
theorem Tracks.admitted (h : Tracks registry self commands) {first rest : List RawCommand} {command : RawCommand}
    (split : commands = first ++ command :: rest) {mid : Stores F}
    (applied : Applied (applyTo registry fromBits) first self.world mid) :
    (command.map fromBits).Admitted mid.network := by
  obtain ⟨wires, devices⟩ := applied.moves h.reached
  have wireRuns := h.pending.wireRuns
  have deviceRuns := h.pending.deviceRuns
  rw [split, List.flatMap_append, List.flatMap_cons] at wireRuns deviceRuns
  obtain ⟨wirePool, start, onward⟩ := wireRuns.split
  obtain ⟨_, here, -⟩ := onward.split
  obtain ⟨devicePool, start', onward'⟩ := deviceRuns.split
  obtain ⟨_, here', -⟩ := onward'.split
  have same : maxId = maxPackedId := by decide
  rw [same] at here here'
  rw [← WorldCommand.wireUses_map fromBits] at here
  rw [← WorldCommand.deviceUses_map fromBits] at here'
  exact WorldCommand.admitted_of_runs
    (here.congr_left (wires.symm.trans ((h.wirePool.symm.foldl _).trans start.foldl)))
    (here'.congr_left (devices.symm.trans ((h.devicePool.symm.foldl _).trans start'.foldl)))

/-- A batch is not refused for an id. -/
theorem Tracks.refused (h : Tracks registry self commands) {error : WorldCommandError} {t : Stores F}
    (refused : applyWorldCommandBuffer registry fromBits true (encodeBuffer commands) self.world = .err error t) :
    error.kind.isIdValidation = false := by
  rw [applyWorldCommandBuffer, WorldCommands.inner_replay h.pending.encodes.count_fits] at refused
  obtain ⟨first, command, rest, mid, applyError, index, start, split, applied, rejects, rfl⟩ :=
    WorldCommands.replay_rejects refused
  obtain ⟨e, rfl, run⟩ := WorldCommands.applyTo_err rejects
  have consistent := (applied.reached h.reached).sound.2.consistent
  have fine := Stores.applyCommand_fine consistent (h.admitted split applied) run
  show (WorldCommands.kindOfModelError e).isIdValidation = false
  rw [kindOfModelError_isIdValidation, fine]

/-- The ids that live on the client are the resident ones. -/
structure Exact (world : ElectricalWorld F) : Prop where
  wires : ∀ id, world.wireIds.look id = some .live ↔
    ∃ wire : WireId, wire.get = id ∧ (world.world.network.wireSlot wire).isSome = true
  devices : ∀ id, world.deviceIds.look id = some .live ↔
    ∃ device : DeviceId, device.get = id ∧ (world.world.network.record device).isSome = true

theorem Tracks.exact (h : Tracks registry self []) : Exact self := by
  have same : IdPool.Same self.wireIds.committedPool self.wireIds.currentPool := h.pending.wireRuns.foldl
  have same' : IdPool.Same self.deviceIds.committedPool self.deviceIds.currentPool := h.pending.deviceRuns.foldl
  refine ⟨fun id => ?_, fun id => ?_⟩
  · rw [WorldIdAllocator.live_iff_committed same]
    exact (h.wirePool.live id).symm
  · rw [WorldIdAllocator.live_iff_committed same']
    exact (h.devicePool.live id).symm

/-! ### Applying the batch -/

omit [F64 F] in
theorem andFinally_ok {call last : WorldCall F Unit} {mid : ElectricalWorld F} (run : call self = .ok () mid) :
    andFinally call last self = last mid := by
  unfold andFinally
  rw [run]

omit [F64 F] in
theorem andFinally_err {call last : WorldCall F Unit} {mid : ElectricalWorld F} {error : WorldException}
    (run : call self = .err error mid) (ends : last mid = .ok () after) :
    andFinally call last self = .err error after := by
  unfold andFinally
  rw [run]
  dsimp only
  rw [ends]

/-- The engine is handed the commands, and the buffer is cleared whatever it answers. -/
theorem nativeBatch_spec (h : Tracks registry self commands) (wires : WorldIdAllocator.Prepared self.wireIds)
    (devices : WorldIdAllocator.Prepared self.deviceIds) :
    (andFinally
      (do
        nativeApply registry fromBits (encodeBuffer commands)
        orPoison do
          onWires WorldIdAllocator.commitBatch
          onDevices WorldIdAllocator.commitBatch)
      (onBuffer WorldCommandBuffer.clear) self).Meets False
      (fun _ after => Tracks registry after [] ∧ Applied (applyTo registry fromBits) commands self.world after.world)
      fun error _ => error.isEngineFailure = true := by
  obtain ⟨cleared, clears, empty⟩ := h.pending.encodes.clear
  have replayed : applyWorldCommandBuffer registry fromBits true (encodeBuffer commands) self.world =
      WorldCommands.replay (applyTo registry fromBits) commands 0 16 self.world :=
    WorldCommands.inner_replay h.pending.encodes.count_fits
  cases run : WorldCommands.replay (applyTo registry fromBits) commands 0 16 self.world with
  | ok value world =>
    have applied := WorldCommands.replay_ok run
    have applies : nativeApply registry fromBits (encodeBuffer commands) self = .ok () { self with world } := by
      rw [nativeApply, replayed, run]
    obtain ⟨wireIds, commits, wireSound, wireCommitted, wireCurrent, -⟩ :=
      WorldIdAllocator.commitBatch_spec h.pending.wires wires
    obtain ⟨deviceIds, commits', deviceSound, deviceCommitted, deviceCurrent, -⟩ :=
      WorldIdAllocator.commitBatch_spec h.pending.devices devices
    have committed : orPoison (do
        onWires WorldIdAllocator.commitBatch
        onDevices WorldIdAllocator.commitBatch) { self with world } =
        .ok () { self with world, wireIds, deviceIds } := by
      have both : (do
          onWires WorldIdAllocator.commitBatch
          onDevices WorldIdAllocator.commitBatch : WorldCall F Unit) { self with world } =
          .ok () { self with world, wireIds, deviceIds } := by
        have first : onWires WorldIdAllocator.commitBatch { self with world } =
            .ok () { self with world, wireIds } := onWires_ok commits
        rw [Call.bind_ok first]
        exact onDevices_ok commits'
      rw [orPoison, both]
    have finishes : onBuffer WorldCommandBuffer.clear { self with world, wireIds, deviceIds } =
        .ok () { self with world, wireIds, deviceIds, commandBuffer := cleared } := onBuffer_ok clears
    rw [andFinally_ok ((Call.bind_ok applies).trans committed), finishes]
    obtain ⟨wireMoves, deviceMoves⟩ := applied.moves h.reached
    refine ⟨⟨⟨h.pending.usable, wireSound, deviceSound, empty, .nil (wireCommitted.symm.trans wireCurrent),
      .nil (deviceCommitted.symm.trans deviceCurrent), h.pending.records⟩, applied.reached h.reached, ?_, ?_⟩, applied⟩
    · exact wireCommitted.symm.trans (h.pending.wireRuns.foldl.symm.trans ((h.wirePool.foldl _).trans wireMoves))
    · exact deviceCommitted.symm.trans (h.pending.deviceRuns.foldl.symm.trans ((h.devicePool.foldl _).trans deviceMoves))
  | err error world =>
    have refuses : nativeApply registry fromBits (encodeBuffer commands) self =
        .err (.commandsFailed error) { self with world, poisoned := true } := by
      rw [nativeApply, replayed, run]
    have finishes : onBuffer WorldCommandBuffer.clear { self with world, poisoned := true } =
        .ok () { self with world, poisoned := true, commandBuffer := cleared } := onBuffer_ok clears
    rw [andFinally_err (Call.bind_err refuses) finishes]
    rfl
  | panic =>
    have panics : nativeApply registry fromBits (encodeBuffer commands) self =
        .err .commandsPanicked { self with poisoned := true } := by
      rw [nativeApply, replayed, run]
    have finishes : onBuffer WorldCommandBuffer.clear { self with poisoned := true } =
        .ok () { self with poisoned := true, commandBuffer := cleared } := onBuffer_ok clears
    rw [andFinally_err (Call.bind_err panics) finishes]
    rfl

/-- The batch is applied and committed, or nothing has happened, or the engine has failed. -/
theorem applyCommands_spec (h : Tracks registry self commands) (grants : Grants) :
    (applyCommands registry fromBits grants self).Meets False
      (fun _ after => Tracks registry after [] ∧ Applied (applyTo registry fromBits) commands self.world after.world)
      fun error after => error.isEngineFailure = true ∨ Leads self after commands := by
  unfold applyCommands
  rw [Call.bind_ok (requireUsable_run h.pending.usable), Call.get_bind]
  by_cases none' : self.commandBuffer.commandCount = 0
  · rw [if_pos none']
    obtain rfl : commands = [] := List.length_eq_zero_iff.mp (h.pending.encodes.count.symm.trans none')
    exact ⟨h, .nil⟩
  rw [if_neg none']
  rcases WorldIdAllocator.prepareCommitBatch_spec h.pending.wires grants.first with
    ⟨e, run⟩ | ⟨wireIds, run, kept, prepared, -⟩
  · exact Outcome.Meets.of_err (Call.bind_err (Call.zoom_err run)) (Or.inr (.refl h.pending))
  rw [Call.bind_ok (onWires_ok run)]
  have leads := Leads.of_wires h.pending kept
  rcases WorldIdAllocator.prepareCommitBatch_spec h.pending.devices grants.second with
    ⟨e, run⟩ | ⟨deviceIds, run, kept', prepared', -⟩
  · exact Outcome.Meets.of_err (Call.bind_err (Call.zoom_err run)) (Or.inr leads)
  have both : onDevices (WorldIdAllocator.prepareCommitBatch grants.second) { self with wireIds } =
    .ok () { self with wireIds, deviceIds } := onDevices_ok run
  rw [Call.bind_ok both]
  have leads' : Leads { self with wireIds } { self with wireIds, deviceIds } commands := .of_devices leads.pending kept'
  obtain ⟨commandBuffer, encoded, encodes, holds⟩ := h.pending.encodes.encodedSegment
  have first : onBuffer WorldCommandBuffer.encodedSegment { self with wireIds, deviceIds } =
    .ok commandBuffer.segment { self with wireIds, deviceIds, commandBuffer } := onBuffer_ok encoded
  have second : onBuffer WorldCommandBuffer.byteSize { self with wireIds, deviceIds, commandBuffer } =
    .ok (encodeBuffer commands).length { self with wireIds, deviceIds, commandBuffer } := onBuffer_ok encodes.byteSize
  rw [Call.bind_ok first, Call.bind_ok second,
    show commandBuffer.segment.take (encodeBuffer commands).length = encodeBuffer commands from holds]
  have tracks : Tracks registry { self with wireIds, deviceIds, commandBuffer } commands := by
    have before := (h.leads leads).leads leads'
    exact ⟨⟨before.pending.usable, before.pending.wires, before.pending.devices, encodes, before.pending.wireRuns,
      before.pending.deviceRuns, before.pending.records⟩, before.reached, before.wirePool, before.devicePool⟩
  exact (nativeBatch_spec tracks prepared prepared').mono id (fun _ _ done => done) fun _ _ failed => Or.inl failed

/-! ### Calls on the engine -/

/-- The allocators still track the network, or the engine has failed. -/
def Keeps {α : Type} (registry : DefinitionRegistry F) (outcome : Outcome (ElectricalWorld F) WorldException α) : Prop :=
  outcome.Meets False (fun _ after => ∃ commands, Tracks registry after commands)
    fun error after => error.isEngineFailure = true ∨ ∃ commands, Tracks registry after commands

theorem Settles.keeps {α : Type} (h : Tracks registry self commands) {removed : List Nat}
    {outcome : Outcome (ElectricalWorld F) WorldException α} (settles : Settles self commands removed outcome) :
    Keeps registry outcome :=
  Outcome.Meets.mono settles id (fun _ _ ⟨later, leads, _⟩ => ⟨later, h.leads leads⟩)
    fun _ _ ⟨later, leads, _⟩ => Or.inr ⟨later, h.leads leads⟩

/-- The batch first, and then a call. -/
theorem applyCommands_then {α : Type} (h : Tracks registry self commands) (grants : Grants) {rest : WorldCall F α}
    (keeps : ∀ mid, Tracks registry mid [] → Keeps registry (rest mid)) :
    Keeps registry ((applyCommands registry fromBits grants >>= fun _ => rest) self) :=
  Call.meets_bind ((applyCommands_spec h grants).mono id (fun _ mid done => keeps mid done.1)
    fun _ _ failed => failed.imp_right fun leads => ⟨commands, h.leads leads⟩)

/-- The engine changes its world, but not the network. -/
theorem Tracks.onWorld (h : Tracks registry self commands) {world : Stores F} (reached : Stores.WorldReached registry world)
    (same : world.network = self.world.network) : Tracks registry { self with world } commands := by
  refine ⟨⟨h.pending.usable, h.pending.wires, h.pending.devices, h.pending.encodes, h.pending.wireRuns,
    h.pending.deviceRuns, h.pending.records⟩, reached, ?_, ?_⟩
  · show IdPool.Same _ world.network.wirePool
    rw [same]
    exact h.wirePool
  · show IdPool.Same _ world.network.devicePool
    rw [same]
    exact h.devicePool

theorem Tracks.subscriptions (h : Tracks registry self commands) {world : Stores F}
    (reached : Stores.WorldReached registry world) (only : Stores.OnlySubscriptions self.world world) :
    Tracks registry { self with world } commands := by
  refine h.onWorld reached ?_
  obtain ⟨subscriptions, rfl⟩ := only
  rfl

theorem nativeSubscribe_keeps (h : Tracks registry self commands) (deviceId observerId : JavaInt) :
    Keeps registry (nativeSubscribe registry deviceId observerId self) := by
  unfold nativeSubscribe
  cases nonZeroId? deviceId.toNat with
  | none => exact Or.inr ⟨commands, h⟩
  | some device =>
    dsimp only
    obtain ⟨start, known, run⟩ := h.reached
    cases subscribed : Stores.subscribeObserver registry device ⟨observerId.toNat, observerId.isLt⟩ self.world with
    | ok id world =>
      have left : (Stores.subscribeObserver registry device ⟨observerId.toNat, observerId.isLt⟩ self.world).Leaves world :=
        Or.inl ⟨id, subscribed⟩
      exact ⟨commands, h.subscriptions ⟨start, known, run.tail (.subscribe _ _ left)⟩
        (Stores.subscribeObserver_leaves left)⟩
    | err error world =>
      have left : (Stores.subscribeObserver registry device ⟨observerId.toNat, observerId.isLt⟩ self.world).Leaves world :=
        Or.inr ⟨error, subscribed⟩
      exact Or.inr ⟨commands, h.subscriptions ⟨start, known, run.tail (.subscribe _ _ left)⟩
        (Stores.subscribeObserver_leaves left)⟩
    | panic => exact Or.inl rfl

theorem nativeUnsubscribe_keeps (h : Tracks registry self commands) (subscriptionId : JavaInt) :
    Keeps registry (nativeUnsubscribe subscriptionId self) := by
  unfold nativeUnsubscribe
  cases nonZeroId? subscriptionId.toNat with
  | none => exact Or.inr ⟨commands, h⟩
  | some subscription =>
    dsimp only
    obtain ⟨start, known, run⟩ := h.reached
    cases unsubscribed : Stores.unsubscribe subscription self.world with
    | ok value world =>
      have left : (Stores.unsubscribe subscription self.world).Leaves world := Or.inl ⟨value, unsubscribed⟩
      exact ⟨commands, h.subscriptions ⟨start, known, run.tail (.unsubscribe _ left)⟩ (Stores.unsubscribe_leaves left)⟩
    | err error world =>
      have left : (Stores.unsubscribe subscription self.world).Leaves world := Or.inr ⟨error, unsubscribed⟩
      exact Or.inr ⟨commands, h.subscriptions ⟨start, known, run.tail (.unsubscribe _ left)⟩
        (Stores.unsubscribe_leaves left)⟩
    | panic => exact Or.inl rfl

theorem subscribeObserver_keeps (h : Tracks registry self commands) (grants : Grants)
    (deviceId deviceGeneration observerId : JavaInt) :
    Keeps registry (subscribeObserver registry fromBits grants deviceId deviceGeneration observerId self) := by
  unfold subscribeObserver
  rw [Call.bind_ok (requireUsable_run h.pending.usable)]
  rcases WorldIdAllocator.requireUsable_spec h.pending.devices deviceId deviceGeneration with ⟨e, run⟩ | ⟨run, -⟩
  · exact Outcome.Meets.of_err (Call.bind_err (Call.zoom_err run)) (Or.inr ⟨commands, h⟩)
  have checked : onDevices (WorldIdAllocator.requireUsable deviceId deviceGeneration) self = .ok () self :=
    onDevices_ok run
  rw [Call.bind_ok checked]
  by_cases negative : observerId.toInt < 0
  · exact Outcome.Meets.of_err (Call.rejectIf_bind_pos negative _) (Or.inr ⟨commands, h⟩)
  rw [Call.rejectIf_bind_neg negative]
  refine applyCommands_then h grants fun mid tracks => ?_
  rw [Call.bind_ok (requireUsable_run tracks.pending.usable)]
  exact nativeSubscribe_keeps tracks deviceId observerId

theorem unsubscribe_keeps (h : Tracks registry self commands) (grants : Grants) (subscriptionId : JavaInt) :
    Keeps registry (unsubscribe registry fromBits grants subscriptionId self) := by
  unfold unsubscribe
  rw [Call.bind_ok (requireUsable_run h.pending.usable)]
  by_cases zero : subscriptionId = 0
  · exact Outcome.Meets.of_err (Call.rejectIf_bind_pos zero _) (Or.inr ⟨commands, h⟩)
  rw [Call.rejectIf_bind_neg zero]
  refine applyCommands_then h grants fun mid tracks => ?_
  rw [Call.bind_ok (requireUsable_run tracks.pending.usable)]
  exact nativeUnsubscribe_keeps tracks subscriptionId

/-! ### Ticks -/

omit [F64 F] in
theorem growRecords_spec {required capacity : Nat} (fuel : Nat) (small : required ≤ maxId) (fits : capacity ≤ maxId) :
    required ≤ growRecords required fuel capacity ∧ growRecords required fuel capacity ≤ maxId := by
  induction fuel generalizing capacity with
  | zero => exact ⟨le_refl _, small⟩
  | succ fuel ih =>
    unfold growRecords
    split
    · dsimp only
      split
      · exact ⟨le_refl _, small⟩
      · exact ih (by omega)
    · exact ⟨by omega, fits⟩

/-- Where the engine ticks, the records are those of the subscriptions it had. -/
theorem nativeTick_spec (h : Tracks registry self commands) (answers : TickAnswers F) {required : Nat}
    (isRequired : required = self.world.subscriptions.subscriptions.length) (room : required ≤ self.recordCapacity) :
    ((nativeTick answers >>= fun recordCount => readSuccessfulTickResult recordCount required) self).Meets False
      (fun recordCount after => Tracks registry after commands ∧ recordCount = after.records.length ∧
        after.records = recordsOf answers.published self.world ∧ (Stores.tick answers self.world).Leaves after.world)
      fun error _ => error.isEngineFailure = true := by
  obtain ⟨start, known, run⟩ := h.reached
  cases ticked : Stores.tick answers self.world with
  | ok value world =>
    have left : (Stores.tick answers self.world).Leaves world := Or.inl ⟨value, ticked⟩
    have same := (Stores.tick_leaves h.reached.sound.2 answers left).network
    have ticks : nativeTick answers self = .ok (recordsOf answers.published self.world).length
        { self with world, records := recordsOf answers.published self.world } := by
      rw [nativeTick, ticked]
    have few : (recordsOf answers.published self.world).length ≤ required := by
      rw [isRequired]
      exact List.length_filterMap_le _ _
    have fits := h.pending.records
    have tracks := h.onWorld ⟨start, known, run.tail (.tick answers left)⟩ same
    rw [Call.bind_ok ticks, readSuccessfulTickResult, if_neg (by dsimp only; omega)]
    exact ⟨⟨⟨tracks.pending.usable, tracks.pending.wires, tracks.pending.devices, tracks.pending.encodes,
      tracks.pending.wireRuns, tracks.pending.deviceRuns, tracks.pending.records⟩, tracks.reached, tracks.wirePool,
      tracks.devicePool⟩, rfl, rfl, ticked ▸ left⟩
  | err failure world =>
    have fails : nativeTick answers self = .err (.tickFailed failure) { self with world, poisoned := true } := by
      rw [nativeTick, ticked]
    exact Outcome.Meets.of_err (Call.bind_err fails) rfl
  | panic =>
    have fails : nativeTick answers self = .err .tickPanicked { self with poisoned := true } := by
      rw [nativeTick, ticked]
    exact Outcome.Meets.of_err (Call.bind_err fails) rfl

/-- A tick applies the batch and then ticks, or stops at one of the two. -/
theorem tick_spec (h : Tracks registry self commands) (grants : Grants) (answers : TickAnswers F) :
    (tick registry fromBits grants answers self).Meets False
      (fun recordCount after => ∃ mid, applyCommands registry fromBits grants self = .ok () mid ∧
        Tracks registry after [] ∧ recordCount = after.records.length ∧
        after.records = recordsOf answers.published mid.world ∧ (Stores.tick answers mid.world).Leaves after.world)
      fun error after => error.isEngineFailure = true ∨ applyCommands registry fromBits grants self = .err error after ∨
        applyCommands registry fromBits grants self = .ok () after := by
  have applies := @applyCommands_spec _ _ _ fromBits _ _ h grants
  unfold tick
  cases applied : applyCommands registry fromBits grants self with
  | err error after => exact Outcome.Meets.of_err (Call.bind_err applied) (Or.inr (Or.inl rfl))
  | panic =>
    rw [applied] at applies
    exact applies.elim
  | ok _ mid =>
    rw [applied] at applies
    have tracks := applies.1
    rw [Call.bind_ok applied, Call.bind_ok (requireUsable_run tracks.pending.usable), Call.get_bind]
    by_cases enough : mid.recordCapacity < mid.world.subscriptions.subscriptions.length
    swap
    · rw [if_neg enough]
      exact (nativeTick_spec tracks answers rfl (by omega)).mono id (fun _ _ ticked => ⟨mid, rfl, ticked⟩)
        fun _ _ failed => Or.inl failed
    rw [if_pos enough]
    by_cases large : maxId < mid.world.subscriptions.subscriptions.length
    · exact Outcome.Meets.of_err (Call.rejectIf_bind_pos large _) (Or.inr (Or.inr rfl))
    rw [Call.rejectIf_bind_neg large]
    have room := tracks.pending.records
    have fits : max mid.recordCapacity 8 ≤ maxId := max_le room (by decide)
    obtain ⟨grown, bounded⟩ := growRecords_spec 64 (Nat.not_lt.mp large) fits
    by_cases refused : grants.records = false
    · have throws : ensureRecords grants mid.world.subscriptions.subscriptions.length mid =
          .err (.java .outOfMemory) mid := by
        unfold ensureRecords
        rw [Call.get_bind, if_neg (by omega), Call.rejectIf_bind_pos refused]
      exact Outcome.Meets.of_err (Call.bind_err throws) (Or.inr (Or.inr rfl))
    have grows : ensureRecords grants mid.world.subscriptions.subscriptions.length mid = .ok () { mid with
        recordCapacity := growRecords mid.world.subscriptions.subscriptions.length 64 (max mid.recordCapacity 8) } := by
      unfold ensureRecords
      rw [Call.get_bind, if_neg (by omega), Call.rejectIf_bind_neg refused]
      rfl
    rw [Call.bind_ok grows]
    have tracks' : Tracks registry { mid with
        recordCapacity := growRecords mid.world.subscriptions.subscriptions.length 64 (max mid.recordCapacity 8) } [] :=
      ⟨⟨tracks.pending.usable, tracks.pending.wires, tracks.pending.devices, tracks.pending.encodes,
        tracks.pending.wireRuns, tracks.pending.deviceRuns, bounded⟩, tracks.reached, tracks.wirePool, tracks.devicePool⟩
    exact (nativeTick_spec tracks' answers rfl grown).mono id (fun _ _ ticked => ⟨mid, rfl, ticked⟩)
      fun _ _ failed => Or.inl failed

theorem tick_keeps (h : Tracks registry self commands) (grants : Grants) (answers : TickAnswers F) :
    Keeps registry (tick registry fromBits grants answers self) := by
  have applies := @applyCommands_spec _ _ _ fromBits _ _ h grants
  refine (tick_spec h grants answers).mono id ?_ ?_
  · rintro _ after ⟨_, -, tracks, -⟩
    exact ⟨[], tracks⟩
  · rintro error after (failed | refused | applied)
    · exact Or.inl failed
    · rw [refused] at applies
      exact applies.imp_right fun leads => ⟨commands, h.leads leads⟩
    · rw [applied] at applies
      exact Or.inr ⟨[], applies.1⟩

end ElectricalWorld

end Hynergy
