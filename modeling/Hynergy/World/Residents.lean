import Hynergy.Lib.IdPool
import Hynergy.World.Follow

/-!
# Resident ids

The ids of the wires and of the devices are two pools of dense ids, and a command uses ids of both.
A command that goes through moves the pools as its uses say; one whose ids are admitted is not
refused for them.
-/

namespace Hynergy

open Lib

variable {F : Type}

namespace Network

variable {self next : Network F}

def wirePool (self : Network F) : IdPool :=
  ⟨self.wires.length, fun id => ∃ wire : WireId, wire.get = id ∧ (self.wireSlot wire).isSome = true⟩

def devicePool (self : Network F) : IdPool :=
  ⟨self.deviceArena.directoryLen, fun id => ∃ device : DeviceId, device.get = id ∧ (self.record device).isSome = true⟩

theorem live_wirePool {wire : WireId} : self.wirePool.live wire.get ↔ (self.wireSlot wire).isSome = true := by
  constructor
  · rintro ⟨other, same, live⟩
    obtain rfl := NonZeroId.ext' same
    exact live
  · exact fun live => ⟨wire, rfl, live⟩

theorem live_devicePool {device : DeviceId} :
    self.devicePool.live device.get ↔ (self.record device).isSome = true := by
  constructor
  · rintro ⟨other, same, live⟩
    obtain rfl := NonZeroId.ext' same
    exact live
  · exact fun live => ⟨device, rfl, live⟩

/-- A pool of the wires, checked wire by wire. -/
theorem wirePool_same {pool : IdPool} (slots : next.wires.length = pool.slots)
    (live : ∀ wire : WireId, (next.wireSlot wire).isSome = true ↔ pool.live wire.get)
    (known : ∀ id, pool.live id → ∃ wire : WireId, wire.get = id) : IdPool.Same pool next.wirePool := by
  refine ⟨slots, fun id => ⟨?_, fun lives => ?_⟩⟩
  · rintro ⟨wire, rfl, here⟩
    exact (live wire).mp here
  · obtain ⟨wire, rfl⟩ := known id lives
    exact ⟨wire, rfl, (live wire).mpr lives⟩

theorem devicePool_same {pool : IdPool} (slots : next.deviceArena.directoryLen = pool.slots)
    (live : ∀ device : DeviceId, (next.record device).isSome = true ↔ pool.live device.get)
    (known : ∀ id, pool.live id → ∃ device : DeviceId, device.get = id) : IdPool.Same pool next.devicePool := by
  refine ⟨slots, fun id => ⟨?_, fun lives => ?_⟩⟩
  · rintro ⟨device, rfl, here⟩
    exact (live device).mp here
  · obtain ⟨device, rfl⟩ := known id lives
    exact ⟨device, rfl, (live device).mpr lives⟩

theorem SameWires.pool (h : SameWires self next) : IdPool.Same self.wirePool next.wirePool :=
  wirePool_same h.length (fun wire => by rw [h.live, live_wirePool]) fun _ ⟨wire, same, _⟩ => ⟨wire, same⟩

theorem SameDevices.pool (h : SameDevices self next) : IdPool.Same self.devicePool next.devicePool := by
  refine devicePool_same (congrArg List.length h.directory) (fun device => ?_)
    fun _ ⟨device, same, _⟩ => ⟨device, same⟩
  have rows := congrArg Option.isSome (h.rows device)
  rw [Option.isSome_map, Option.isSome_map] at rows
  rw [rows, live_devicePool]

end Network

/-! ### What commands do with ids -/

namespace WorldCommand

def wireUses : WorldCommand F → List IdUse
  | .addWire wire => [.add wire.get]
  | .removeWire wire => [.remove wire.get]
  | .connectWires wireA wireB | .disconnectWires wireA wireB => [.use wireA.get, .use wireB.get]
  | .attachTerminal wire _ _ | .detachTerminal wire _ _ => [.use wire.get]
  | .addDevice _ _ | .removeDevice _ | .setDeviceParameter _ _ _ => []

def deviceUses : WorldCommand F → List IdUse
  | .addWire _ | .removeWire _ | .connectWires _ _ | .disconnectWires _ _ => []
  | .attachTerminal _ device _ | .detachTerminal _ device _ => [.use device.get]
  | .addDevice device _ => [.add device.get]
  | .removeDevice device => [.remove device.get]
  | .setDeviceParameter device _ _ => [.use device.get]

/-- An id that the command adds is vacant, at most the slot count and packable; the others are resident. -/
def Admitted (network : Network F) : WorldCommand F → Prop
  | .addWire wire => wire.get ≤ maxPackedId ∧ wire.index ≤ network.wires.length ∧ network.wireSlot wire = none
  | .removeWire wire => (network.wireSlot wire).isSome = true
  | .connectWires wireA wireB | .disconnectWires wireA wireB =>
    (network.wireSlot wireA).isSome = true ∧ (network.wireSlot wireB).isSome = true
  | .attachTerminal wire device _ | .detachTerminal wire device _ =>
    (network.wireSlot wire).isSome = true ∧ (network.record device).isSome = true
  | .addDevice device _ =>
    device.get ≤ maxPackedId ∧ device.index ≤ network.deviceArena.directoryLen ∧ network.record device = none
  | .removeDevice device | .setDeviceParameter device _ _ => (network.record device).isSome = true

theorem admitted_of_runs {network : Network F} {command : WorldCommand F} {wires devices : IdPool}
    (wireRuns : IdPool.Runs maxPackedId network.wirePool command.wireUses wires)
    (deviceRuns : IdPool.Runs maxPackedId network.devicePool command.deviceUses devices) :
    command.Admitted network := by
  cases command with
  | addWire wire =>
    obtain ⟨⟨-, fits, next, vacant⟩, -⟩ := wireRuns.head
    refine ⟨fits, ?_, ?_⟩
    · have := wire.get_eq
      have next : wire.get ≤ network.wires.length + 1 := next
      omega
    · rw [Network.live_wirePool] at vacant
      exact Option.not_isSome_iff_eq_none.mp vacant
  | removeWire wire =>
    obtain ⟨live, -⟩ := wireRuns.head
    exact Network.live_wirePool.mp live
  | connectWires wireA wireB | disconnectWires wireA wireB =>
    obtain ⟨live, rest⟩ := wireRuns.head
    obtain ⟨live', -⟩ := rest.head
    exact ⟨Network.live_wirePool.mp live, Network.live_wirePool.mp live'⟩
  | attachTerminal wire device terminal | detachTerminal wire device terminal =>
    obtain ⟨live, -⟩ := wireRuns.head
    obtain ⟨live', -⟩ := deviceRuns.head
    exact ⟨Network.live_wirePool.mp live, Network.live_devicePool.mp live'⟩
  | addDevice device definition =>
    obtain ⟨⟨-, fits, next, vacant⟩, -⟩ := deviceRuns.head
    refine ⟨fits, ?_, ?_⟩
    · have := device.get_eq
      have next : device.get ≤ network.deviceArena.directoryLen + 1 := next
      omega
    · rw [Network.live_devicePool] at vacant
      exact Option.not_isSome_iff_eq_none.mp vacant
  | removeDevice device | setDeviceParameter device _ _ =>
    obtain ⟨live, -⟩ := deviceRuns.head
    exact Network.live_devicePool.mp live

/-- The part of the command that is on the network. -/
def onNetwork [F64 F] (definitions : DefinitionRegistry F) : WorldCommand F → Call (Network F) NetworkModelError Unit
  | .addWire wire => Network.addWire wire
  | .removeWire wire => Network.removeWire wire
  | .connectWires wireA wireB => Network.connectWires wireA wireB
  | .disconnectWires wireA wireB => Network.disconnectWires wireA wireB
  | .addDevice device definition => do
    let _result ← Network.addDevice definitions device definition
  | .removeDevice device => do
    let _result ← Network.removeDevice device
  | .attachTerminal wire device terminal => Network.attachTerminal wire device terminal
  | .detachTerminal wire device terminal => Network.detachTerminal wire device terminal
  | .setDeviceParameter device parameter value => Network.setDeviceParameter definitions device parameter value

/-- The pools have moved as the uses of the command say. -/
structure Moves (command : WorldCommand F) (before after : Network F) : Prop where
  wires : IdPool.Same (command.wireUses.foldl IdPool.apply before.wirePool) after.wirePool
  devices : IdPool.Same (command.deviceUses.foldl IdPool.apply before.devicePool) after.devicePool

end WorldCommand

namespace Network

variable {self next : Network F} {registry : DefinitionRegistry F}

theorem WireAdded.moves {wire : WireId} (h : WireAdded self next wire) : (WorldCommand.addWire wire).Moves self next := by
  refine ⟨wirePool_same ?_ (fun other => ?_) ?_, (SameDevices.of_arena h.arena).pool⟩
  · show next.wires.length = max self.wires.length wire.get
    rw [h.length, wire.get_eq]
  · show _ ↔ other.get = wire.get ∨ self.wirePool.live other.get
    rw [h.slots, live_wirePool]
    by_cases same : other = wire
    · subst same
      simp
    · have different : other.get ≠ wire.get := fun e => same (NonZeroId.ext' e)
      simp [same, different]
  · rintro id (rfl | ⟨other, same, -⟩)
    · exact ⟨wire, rfl⟩
    · exact ⟨other, same⟩

theorem WireRemoved.moves {wire : WireId} (h : WireRemoved self next wire) :
    (WorldCommand.removeWire wire).Moves self next := by
  refine ⟨wirePool_same h.length (fun other => ?_) ?_, h.devices.pool⟩
  · show _ ↔ other.get ≠ wire.get ∧ self.wirePool.live other.get
    rw [live_wirePool]
    by_cases same : other = wire
    · subst same
      simp [h.gone]
    · have different : other.get ≠ wire.get := fun e => same (NonZeroId.ext' e)
      rw [h.stays other same]
      simp [different]
  · rintro id ⟨-, other, same, -⟩
    exact ⟨other, same⟩

theorem SameWires.of_wires (same : next.wires = self.wires) : SameWires self next :=
  ⟨congrArg List.length same, fun id => by rw [wireSlot, wireSlot, same]⟩

theorem DeviceAdded.moves [F64 F] {device : DeviceId} {definitionId : DefinitionId} {definition : DeviceDefinition F}
    {result : DeviceInsertResult} (h : DeviceAdded registry self next device definitionId definition result) :
    (WorldCommand.addDevice device definitionId).Moves self next := by
  refine ⟨(SameWires.of_wires h.wires).pool, devicePool_same ?_ (fun other => ?_) ?_⟩
  · show next.deviceArena.directoryLen = max self.deviceArena.directoryLen device.get
    rw [device.get_eq]
    exact h.inserted.directory
  · show _ ↔ other.get = device.get ∨ self.devicePool.live other.get
    rw [live_devicePool]
    by_cases same : other = device
    · subst same
      simp [record, h.inserted.added]
    · have different : other.get ≠ device.get := fun e => same (NonZeroId.ext' e)
      rw [record, h.inserted.kept other same]
      simp [different, record]
  · rintro id (rfl | ⟨other, same, -⟩)
    · exact ⟨device, rfl⟩
    · exact ⟨other, same⟩

theorem DeviceRemoved.moves {device : DeviceId} {row : DeviceRow F} {loc : Loc} {chunk : DeviceChunk F}
    {result : DeviceRemoveResult} (h : DeviceRemoved registry self next device row loc chunk result) :
    (WorldCommand.removeDevice device).Moves self next := by
  refine ⟨h.wires.pool, devicePool_same h.removed.directory (fun other => ?_) ?_⟩
  · show _ ↔ other.get ≠ device.get ∧ self.devicePool.live other.get
    rw [live_devicePool]
    by_cases same : other = device
    · subst same
      simp [record, h.removed.removed]
    · have different : other.get ≠ device.get := fun e => same (NonZeroId.ext' e)
      rw [record, h.removed.kept other same]
      simp [different, record]
  · rintro id ⟨-, other, same, -⟩
    exact ⟨other, same⟩

theorem ParameterSet.moves [F64 F] {device : DeviceId} {parameter : ParameterId} {value : F} {row : DeviceRow F}
    (h : ParameterSet registry self next device parameter value row) :
    (WorldCommand.setDeviceParameter device parameter value).Moves self next := by
  refine ⟨(SameWires.of_wires h.wires).pool, devicePool_same ?_ (fun other => ?_) fun _ ⟨other, same, _⟩ => ⟨other, same⟩⟩
  · exact congrArg List.length h.edited.directory
  · show _ ↔ self.devicePool.live other.get
    rw [live_devicePool, record]
    by_cases same : other = device
    · subst same
      rw [h.edited.written, h.found]
      exact ⟨fun _ => rfl, fun _ => rfl⟩
    · rw [h.edited.kept other same, record]

theorem onNetwork_moves [F64 F] (h : Consistent registry self) {command : WorldCommand F}
    (run : command.onNetwork registry self = .ok () next) : command.Moves self next := by
  cases command with
  | addWire wire =>
    rcases addWire_spec h wire with ⟨_, ran, -, added⟩ | ⟨e, failed⟩
    · obtain ⟨-, rfl⟩ := Outcome.ok.inj (ran.symm.trans run)
      exact added.moves
    · cases failed.symm.trans run
  | removeWire wire =>
    rcases removeWire_spec h wire with ⟨_, ran, -, removed⟩ | ⟨⟨e, failed⟩, -⟩
    · obtain ⟨-, rfl⟩ := Outcome.ok.inj (ran.symm.trans run)
      exact removed.moves
    · cases failed.symm.trans run
  | connectWires wireA wireB =>
    rcases connectWires_spec h wireA wireB with ⟨_, ran, -, -, -, -, relinked⟩ | ⟨e, failed⟩
    · obtain ⟨-, rfl⟩ := Outcome.ok.inj (ran.symm.trans run)
      exact ⟨relinked.same.wires.pool, relinked.same.devices.pool⟩
    · cases failed.symm.trans run
  | disconnectWires wireA wireB =>
    rcases disconnectWires_spec h wireA wireB with ⟨_, ran, -, -, relinked⟩ | ⟨e, failed⟩
    · obtain ⟨-, rfl⟩ := Outcome.ok.inj (ran.symm.trans run)
      exact ⟨relinked.same.wires.pool, relinked.same.devices.pool⟩
    · cases failed.symm.trans run
  | attachTerminal wire device terminal =>
    rcases attachTerminal_spec h wire device terminal with ⟨_, _, ran, -, -, -, relinked⟩ | ⟨e, failed⟩
    · obtain ⟨-, rfl⟩ := Outcome.ok.inj (ran.symm.trans run)
      exact ⟨relinked.same.wires.pool, relinked.same.devices.pool⟩
    · cases failed.symm.trans run
  | detachTerminal wire device terminal =>
    rcases detachTerminal_spec h wire device terminal with ⟨_, _, ran, -, relinked⟩ | ⟨e, failed⟩
    · obtain ⟨-, rfl⟩ := Outcome.ok.inj (ran.symm.trans run)
      exact ⟨relinked.same.wires.pool, relinked.same.devices.pool⟩
    · cases failed.symm.trans run
  | addDevice device definition =>
    rcases prepareAddDevice_spec h device definition with
      ⟨prepared, _, active, ran, rfl, rfl, consistent, ready⟩ | ⟨e, failed⟩ | ⟨n, failed, -⟩
    · obtain ⟨result, after, commit, -, -, -, added⟩ := commitAddDevice_spec consistent ready
      have inserts : Network.addDevice registry prepared.device prepared.definitionId self = .ok result after :=
        (Call.bind_ok ran).trans commit
      have whole : (WorldCommand.addDevice prepared.device prepared.definitionId).onNetwork registry self =
        .ok () after := Call.bind_ok inserts
      obtain ⟨-, rfl⟩ := Outcome.ok.inj (whole.symm.trans run)
      exact ⟨added.moves.wires, added.moves.devices⟩
    · have whole : (WorldCommand.addDevice device definition).onNetwork registry self = .err e self :=
        Call.bind_err (Call.bind_err failed)
      cases whole.symm.trans run
    · have whole : (WorldCommand.addDevice device definition).onNetwork registry self = .err .deviceArenaExhausted _ :=
        Call.bind_err (Call.bind_err failed)
      cases whole.symm.trans run
  | removeDevice device =>
    rcases removeDevice_spec h device with ⟨_, _, _, _, after, ran, -, removed⟩ | ⟨⟨e, failed⟩, -⟩
    · have whole : (WorldCommand.removeDevice device).onNetwork registry self = .ok () after := Call.bind_ok ran
      obtain ⟨-, rfl⟩ := Outcome.ok.inj (whole.symm.trans run)
      exact removed.moves
    · have whole : (WorldCommand.removeDevice device).onNetwork registry self = .err e self := Call.bind_err failed
      cases whole.symm.trans run
  | setDeviceParameter device parameter value =>
    rcases setDeviceParameter_spec h device parameter value with ⟨_, _, ran, -, set⟩ | ⟨e, failed⟩
    · obtain ⟨-, rfl⟩ := Outcome.ok.inj (ran.symm.trans run)
      exact set.moves
    · cases failed.symm.trans run

end Network

/-! ### Errors about ids -/

/-- Whether the error says that an id is not valid. -/
def NetworkModelError.isIdValidation : NetworkModelError → Bool
  | .idOutOfBound _ _ | .idExceeds31Bit _ | .idAlreadyAssigned _ | .idNotAssigned _ _ => true
  | _ => false

/-- No error of the call is about an id. -/
def FineIds {σ α : Type} (outcome : Outcome σ NetworkModelError α) : Prop :=
  outcome.Meets True (fun _ _ => True) fun error _ => error.isIdValidation = false

namespace FineIds

variable {σ α β : Type} {state : σ} {error : NetworkModelError}

theorem of_ok {outcome : Outcome σ NetworkModelError α} {value : α} (run : outcome = .ok value state) :
    FineIds outcome := Outcome.Meets.of_ok run trivial

theorem of_err {outcome : Outcome σ NetworkModelError α} (run : outcome = .err error state)
    (fine : error.isIdValidation = false) : FineIds outcome := Outcome.Meets.of_err run fine

theorem reject {condition : Prop} [Decidable condition] {next : Unit → Call σ NetworkModelError α}
    (fine : error.isIdValidation = false) (rest : ¬ condition → FineIds (next () state)) :
    FineIds ((Call.rejectIf condition error >>= next) state) := by
  by_cases rejected : condition
  · exact of_err (Call.rejectIf_bind_pos rejected _) fine
  · rw [Call.rejectIf_bind_neg rejected]
    exact rest rejected

theorem okOr {value : Option β} {next : β → Call σ NetworkModelError α} (fine : error.isIdValidation = false)
    (rest : ∀ v, value = some v → FineIds (next v state)) :
    FineIds ((Call.okOr value error >>= next) state) := by
  cases value with
  | none => exact of_err rfl fine
  | some v => exact rest v rfl

end FineIds

namespace Network

variable {self : Network F} {registry : DefinitionRegistry F}

theorem addWire_fine {wire : WireId} (admitted : (WorldCommand.addWire wire : WorldCommand F).Admitted self) :
    FineIds (addWire wire self) := by
  obtain ⟨fits, inside, vacant⟩ := admitted
  unfold addWire
  rw [Call.rejectIf_bind_neg (by omega), Call.get_bind, Call.rejectIf_bind_neg (by omega)]
  by_cases last : wire.index = self.wires.length
  · rw [if_pos last]
    exact .of_ok rfl
  · rw [if_neg last, Call.rejectIf_bind_neg (by simp [vacant])]
    exact .of_ok rfl

theorem connectWires_fine {wireA wireB : WireId} (liveA : (self.wireSlot wireA).isSome = true)
    (liveB : (self.wireSlot wireB).isSome = true) : FineIds (connectWires wireA wireB self) := by
  obtain ⟨aSlot, readA⟩ := Option.isSome_iff_exists.mp liveA
  obtain ⟨bSlot, readB⟩ := Option.isSome_iff_exists.mp liveB
  unfold connectWires
  refine .reject rfl fun _ => ?_
  rw [Call.get_bind, Call.rejectIf_bind_neg (Nat.not_le.mpr (index_lt_of_wireSlot readA)),
    Call.rejectIf_bind_neg (Nat.not_le.mpr (index_lt_of_wireSlot readB)), readA, readB, Call.okOr_some_bind,
    Call.okOr_some_bind]
  exact .reject rfl fun _ => .of_ok rfl

theorem disconnectWires_fine {wireA wireB : WireId} (liveA : (self.wireSlot wireA).isSome = true)
    (liveB : (self.wireSlot wireB).isSome = true) : FineIds (disconnectWires wireA wireB self) := by
  obtain ⟨aSlot, readA⟩ := Option.isSome_iff_exists.mp liveA
  obtain ⟨bSlot, readB⟩ := Option.isSome_iff_exists.mp liveB
  unfold disconnectWires
  refine .reject rfl fun _ => ?_
  rw [Call.get_bind, Call.rejectIf_bind_neg (Nat.not_le.mpr (index_lt_of_wireSlot readA)),
    Call.rejectIf_bind_neg (Nat.not_le.mpr (index_lt_of_wireSlot readB)), readA, readB, Call.okOr_some_bind,
    Call.okOr_some_bind]
  exact .reject rfl fun _ => .of_ok rfl

section Consistent

variable (h : Consistent registry self)

include h

theorem attachTerminal_fine {wire : WireId} {device : DeviceId} (terminal : TerminalId)
    (live : (self.wireSlot wire).isSome = true) (resident : (self.record device).isSome = true) :
    FineIds (attachTerminal wire device terminal self) := by
  obtain ⟨slot, live⟩ := Option.isSome_iff_exists.mp live
  obtain ⟨row, found⟩ := Option.isSome_iff_exists.mp resident
  have read := terminalConnection_of_record h.toStored found terminal
  unfold attachTerminal
  rw [Call.bind_ok (wireConnections_of_live live)]
  cases at' : row.terminals[terminal.index]? with
  | none =>
    rw [at'] at read
    exact .of_err (Call.bind_err read) rfl
  | some connection =>
  rw [at'] at read
  rw [Call.bind_ok read]
  by_cases fits : terminal.id < 2 ^ 31
  swap
  · exact .of_err (Call.bind_err (terminalRef_of_large fits)) rfl
  rw [Call.bind_ok (terminalRef_of_fits fits)]
  refine .reject rfl fun free => ?_
  obtain rfl : connection = none := Option.not_isSome_iff_eq_none.mp free
  rcases h.arena.attachTerminal_spec device terminal (.wire wire) with ⟨_, arena, -, -, run, -⟩ | ⟨-, never⟩
  swap
  · exact absurd at' (never row found)
  have live' : Network.wireSlot { self with deviceArena := arena } wire = some slot := live
  rw [Call.bind_ok (arena_ok run), editWire, Call.bind_ok (wireConnections_of_live live')]
  exact .of_ok rfl

theorem detachTerminal_fine {wire : WireId} {device : DeviceId} (terminal : TerminalId)
    (live : (self.wireSlot wire).isSome = true) (resident : (self.record device).isSome = true) :
    FineIds (detachTerminal wire device terminal self) := by
  obtain ⟨slot, live⟩ := Option.isSome_iff_exists.mp live
  obtain ⟨row, found⟩ := Option.isSome_iff_exists.mp resident
  have read := terminalConnection_of_record h.toStored found terminal
  unfold detachTerminal
  rw [Call.bind_ok (wireConnections_of_live live)]
  by_cases fits : terminal.id < 2 ^ 31
  swap
  · exact .of_err (Call.bind_err (terminalRef_of_large fits)) rfl
  rw [Call.bind_ok (terminalRef_of_fits fits)]
  cases at' : row.terminals[terminal.index]? with
  | none =>
    rw [at'] at read
    exact .of_err (Call.bind_err read) rfl
  | some connection =>
  rw [at'] at read
  rw [Call.bind_ok read]
  refine .reject rfl fun attached => ?_
  rcases h.arena.detachTerminal_spec device terminal with ⟨_, _, arena, -, -, run, -⟩ | ⟨-, never⟩
  swap
  · cases (never row found).symm.trans at'
  have live' : Network.wireSlot { self with deviceArena := arena } wire = some slot := live
  rw [Call.bind_ok (arena_ok run), editWire, Call.bind_ok (wireConnections_of_live live')]
  exact .of_ok rfl

variable [F64 F]

theorem addDevice_fine {device : DeviceId} {definitionId : DefinitionId} (fits : device.get ≤ maxPackedId)
    (inside : device.index ≤ self.deviceArena.directoryLen) (vacant : self.record device = none) :
    FineIds (addDevice registry device definitionId self) := by
  have unassigned : ¬ (device.index < self.deviceArena.directoryLen ∧ self.deviceArena.isAssigned device = true) :=
    fun assigned => h.arena.isAssigned_iff.mp assigned.2 (h.arena.record_eq_none.mp vacant)
  have prepares : prepareAddDevice registry device definitionId self =
      (do
        let definition ← Call.okOr (registry.get definitionId) (NetworkModelError.unknownDefinition definitionId)
        arena (DeviceArena.prepareInsert device definitionId definition)) self := by
    unfold prepareAddDevice
    rw [Call.rejectIf_bind_neg (by omega), Call.get_bind, Call.rejectIf_bind_neg (by omega),
      Call.rejectIf_bind_neg unassigned]
  cases known : registry.get definitionId with
  | none =>
    rw [known] at prepares
    exact .of_err (Call.bind_err prepares) rfl
  | some definition =>
    rw [known, Call.okOr_some_bind] at prepares
    obtain ⟨active, consistent, ⟨prepared, run, rfl, rfl, ready⟩ | ⟨run, -⟩⟩ :=
      DeviceArena.prepareInsert_spec h.arena device known
    · obtain ⟨result, after, commit, -⟩ := commitAddDevice_spec (h.withHints consistent)
        ⟨known, by omega, inside, vacant, ready⟩
      exact .of_ok ((Call.bind_ok (prepares.trans (arena_ok run))).trans commit)
    · exact .of_err (Call.bind_err (prepares.trans (arena_err run))) rfl

theorem setDeviceParameter_fine {device : DeviceId} (parameter : ParameterId) (value : F)
    (resident : (self.record device).isSome = true) :
    FineIds (setDeviceParameter registry device parameter value self) := by
  unfold setDeviceParameter
  rcases device_spec h.toStored device with ⟨row, found, read⟩ | ⟨missing, -⟩
  swap
  · rw [missing] at resident
    cases resident
  rw [Call.bind_ok read]
  refine .okOr rfl fun definition known => .okOr rfl fun constraints constraint => ?_
  cases valid : constraints.validate value with
  | error e => exact .of_err rfl rfl
  | ok =>
  rw [Call.ofExcept_ok_bind]
  rcases h.arena.setParameter_spec device parameter value with ⟨_, arena, -, -, run, -⟩ | ⟨-, never⟩
  · exact .of_ok (arena_ok run)
  · -- a row has the parameters of its definition
    obtain ⟨loc, locator, chunk, site⟩ := h.arena.site found
    obtain ⟨definition', known', -, counts⟩ := site.ok.definition
    have same : row.definitionId = chunk.definitionId := by
      rw [site.row]
      rfl
    obtain rfl := Option.some.inj ((same ▸ known).symm.trans known')
    have inside := (List.getElem?_eq_some_iff.mp constraint).1
    have outside := never row found
    rw [site.parameters_length, counts] at outside
    omega

/-- A command whose ids are admitted is not refused for them. -/
theorem onNetwork_fine {command : WorldCommand F} (admitted : command.Admitted self) :
    FineIds (command.onNetwork registry self) := by
  cases command with
  | addWire wire => exact addWire_fine admitted
  | removeWire wire =>
    rcases removeWire_spec h wire with ⟨_, run, -⟩ | ⟨-, absent⟩
    · exact .of_ok run
    · have admitted : (self.wireSlot wire).isSome = true := admitted
      rw [absent] at admitted
      cases admitted
  | connectWires wireA wireB => exact connectWires_fine admitted.1 admitted.2
  | disconnectWires wireA wireB => exact disconnectWires_fine admitted.1 admitted.2
  | attachTerminal wire device terminal => exact attachTerminal_fine h terminal admitted.1 admitted.2
  | detachTerminal wire device terminal => exact detachTerminal_fine h terminal admitted.1 admitted.2
  | addDevice device definition =>
    exact Call.meets_bind ((addDevice_fine h admitted.1 admitted.2.1 admitted.2.2).mono id (fun _ _ _ => trivial)
      fun _ _ fine => fine)
  | removeDevice device =>
    rcases removeDevice_spec h device with ⟨_, _, _, _, _, run, -⟩ | ⟨-, absent⟩
    · exact .of_ok (Call.bind_ok run)
    · have admitted : (self.record device).isSome = true := admitted
      rw [absent] at admitted
      cases admitted
  | setDeviceParameter device parameter value => exact setDeviceParameter_fine h parameter value admitted

end Consistent

end Network

/-! ### Commands and their part on the network -/

namespace Stores

variable [F64 F] {self : Stores F} {registry : DefinitionRegistry F}

/-- A call that goes on once the network is edited: it ends with the network it found. -/
def Follows (self : Stores F) (outcome : Outcome (Stores F) NetworkModelError Unit) : Prop :=
  outcome.Meets True (fun _ after => after.network = self.network) fun _ _ => False

omit [F64 F] in
theorem retopologize_follows (edit : Network F → DerivedTopology → Option DerivedTopology) :
    Follows self (retopologize edit self) := by
  unfold retopologize
  rw [Call.get_bind]
  cases edit self.network self.derivedTopology with
  | none => trivial
  | some topology => rfl

omit [F64 F] in
theorem retraverse_follows (edit : Network F → DerivedTopology → TraversalScratch →
    Option (DerivedTopology × TraversalScratch)) : Follows self (retraverse edit self) := by
  unfold retraverse
  rw [Call.get_bind]
  cases edit self.network self.derivedTopology self.topologyScratch with
  | none => trivial
  | some result => rfl

omit [F64 F] in
theorem Follows.bind {call rest : Command F Unit} (first : Follows self (call self))
    (second : ∀ mid : Stores F, mid.network = self.network → Follows mid (rest mid)) :
    Follows self ((call >>= fun _ => rest) self) := by
  refine Call.meets_bind (Outcome.Meets.mono first id (fun _ mid same => ?_) fun _ _ h => h)
  exact (second mid same).mono id (fun _ after same' => same'.trans same) fun _ _ h => h

omit [F64 F] in
theorem markMoved_follows (devices : List DeviceId) : Follows self (markMoved devices self) := by
  induction devices generalizing self with
  | nil => rfl
  | cons device devices ih => exact Follows.bind (retopologize_follows _) fun mid _ => ih

omit [F64 F] in
/-- A call on the network, and what follows it. -/
theorem onNetwork_follows {α : Type} {call : Call (Network F) NetworkModelError α} {rest : α → Command F Unit}
    (follows : ∀ value (mid : Stores F), Follows mid (rest value mid)) :
    ((onNetwork call >>= rest) self).Meets True (fun _ after => ∃ value, call self.network = .ok value after.network)
      fun error after => call self.network = .err error after.network := by
  refine Call.meets_bind ?_
  cases run : call self.network with
  | ok value network =>
    rw [onNetwork_ok run]
    exact (follows value { self with network }).mono id (fun _ after same => ⟨value, by rw [same]⟩) fun _ _ h => h.elim
  | err error network =>
    rw [onNetwork_err run]
    rfl
  | panic =>
    rw [onNetwork, Call.zoom, run]
    trivial

theorem addDevice_network (device : DeviceId) (definition : DefinitionId) :
    (addDevice registry device definition self).Meets True
      (fun _ after => ∃ value, Network.addDevice registry device definition self.network = .ok value after.network)
      fun error after => Network.addDevice registry device definition self.network = .err error after.network := by
  unfold addDevice Network.addDevice
  refine Call.meets_bind ?_
  cases prepare : Network.prepareAddDevice registry device definition self.network with
  | err error network =>
    rw [onNetwork_err prepare, Call.bind_err prepare]
    rfl
  | panic =>
    rw [onNetwork, Call.zoom, prepare]
    trivial
  | ok modelInsert network =>
  rw [onNetwork_ok prepare, Call.bind_ok prepare]
  refine Call.meets_expect trivial fun known _ => ?_
  rw [Call.get_bind]
  refine Call.meets_expect trivial fun stateInsert _ => Call.meets_expect trivial fun topologyInsert _ => ?_
  refine onNetwork_follows fun insert mid => ?_
  rw [Call.get_bind]
  refine Call.meets_expect trivial fun physicalState _ => ?_
  rw [Call.set_bind]
  show Follows { mid with physicalState } _
  exact retopologize_follows _

theorem removeDevice_network (device : DeviceId) :
    (removeDevice registry device self).Meets True
      (fun _ after => ∃ value, Network.removeDevice device self.network = .ok value after.network)
      fun error after => Network.removeDevice device self.network = .err error after.network := by
  unfold removeDevice
  rw [Call.get_bind]
  refine Call.meets_expect trivial fun topologyRemoval _ => onNetwork_follows fun removal mid => ?_
  rw [Call.get_bind]
  refine Call.meets_expect trivial fun physicalState _ => ?_
  rw [Call.set_bind]
  show Follows { mid with physicalState } _
  refine Follows.bind (retraverse_follows _) fun _ _ => Follows.bind (markMoved_follows _) fun last _ => ?_
  cases removal.chunkRelocation with
  | none => rfl
  | some relocation =>
    dsimp only
    rw [Call.get_bind]
    refine Call.meets_expect trivial fun movedDevices _ => ?_
    exact Follows.bind (markMoved_follows _) fun _ _ => rfl

/-- On the network, a command does what its part there does. -/
theorem applyCommand_network (command : WorldCommand F) :
    (applyCommand registry command self).Meets True
      (fun _ after => command.onNetwork registry self.network = .ok () after.network)
      fun error after => command.onNetwork registry self.network = .err error after.network := by
  have plain : ∀ {call : Call (Network F) NetworkModelError Unit} {rest : Command F Unit},
      (∀ mid : Stores F, Follows mid (rest mid)) → ((onNetwork call >>= fun _ => rest) self).Meets True
        (fun _ after => call self.network = .ok () after.network)
        fun error after => call self.network = .err error after.network := fun follows =>
    (onNetwork_follows fun _ => follows).mono id (fun _ _ ran => ran.elim fun _ ran => ran) fun _ _ failed => failed
  cases command with
  | addWire wire => exact plain fun _ => retopologize_follows _
  | removeWire wire => exact plain fun _ => retraverse_follows _
  | connectWires wireA wireB => exact plain fun _ => retopologize_follows _
  | disconnectWires wireA wireB => exact plain fun _ => retraverse_follows _
  | attachTerminal wire device terminal => exact plain fun _ => retopologize_follows _
  | detachTerminal wire device terminal => exact plain fun _ => retraverse_follows _
  | setDeviceParameter device parameter value => exact plain fun _ => retopologize_follows _
  | addDevice device definition =>
    exact (addDevice_network device definition).mono id (fun _ _ ⟨_, ran⟩ => Call.bind_ok ran)
      fun _ _ failed => Call.bind_err failed
  | removeDevice device =>
    exact (removeDevice_network device).mono id (fun _ _ ⟨_, ran⟩ => Call.bind_ok ran)
      fun _ _ failed => Call.bind_err failed

/-- A command that goes through moves the pools as its uses say. -/
theorem applyCommand_moves {command : WorldCommand F} {after : Stores F} (h : self.network.Consistent registry)
    (run : applyCommand registry command self = .ok () after) : command.Moves self.network after.network := by
  have ran := @applyCommand_network _ _ self registry command
  rw [run] at ran
  exact Network.onNetwork_moves h ran

/-- A command whose ids are admitted is not refused for them. -/
theorem applyCommand_fine {command : WorldCommand F} (h : self.network.Consistent registry)
    (admitted : command.Admitted self.network) {error : NetworkModelError} {after : Stores F}
    (run : applyCommand registry command self = .err error after) : error.isIdValidation = false := by
  have ran := @applyCommand_network _ _ self registry command
  rw [run] at ran
  have fine := Network.onNetwork_fine h admitted
  rw [ran] at fine
  exact fine

end Stores

end Hynergy
