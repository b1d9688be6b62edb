import Hynergy.Client.CommandSession
import Hynergy.Client.ElectricalWorld
import Hynergy.World.Observers
import Hynergy.World.Residents

/-!
# Sessions of a world

The allocators of a world track the network through every operation: the pending commands lead
from the pools that were committed to the pools that the client works with.
-/

namespace Hynergy

open Lib

variable {F : Type}

/-! ### The ids of commands -/

theorem nonZeroId?_get {kind : NonZeroIdKind} {raw : Nat} {id : NonZeroId kind} (known : nonZeroId? raw = some id) :
    id.get = raw := by
  unfold nonZeroId? at known
  split at known
  · obtain rfl := Option.some.inj known
    rfl
  · cases known

@[simp] theorem WorldCommand.wireUses_map {G : Type} (read : F → G) (command : WorldCommand F) :
    (command.map read).wireUses = command.wireUses := by cases command <;> rfl

@[simp] theorem WorldCommand.deviceUses_map {G : Type} (read : F → G) (command : WorldCommand F) :
    (command.map read).deviceUses = command.deviceUses := by cases command <;> rfl

@[simp] theorem WorldCommand.removedDevices_map {G : Type} (read : F → G) (command : WorldCommand F) :
    (command.map read).removedDevices = command.removedDevices := by cases command <;> rfl

namespace WorldCommandBuffer

/-- What a call asks to be done with wires. -/
def BufferCall.wireUses : BufferCall → List IdUse
  | .addWire wireId => [.add wireId.toNat]
  | .removeWire wireId => [.remove wireId.toNat]
  | .connectWires wireAId wireBId | .disconnectWires wireAId wireBId => [.use wireAId.toNat, .use wireBId.toNat]
  | .attachTerminal wireId _ _ | .detachTerminal wireId _ _ => [.use wireId.toNat]
  | _ => []

def BufferCall.deviceUses : BufferCall → List IdUse
  | .addDevice deviceId _ => [.add deviceId.toNat]
  | .removeDevice deviceId => [.remove deviceId.toNat]
  | .attachTerminal _ deviceId _ | .detachTerminal _ deviceId _ | .setDeviceParameter deviceId _ _ =>
    [.use deviceId.toNat]
  | _ => []

def BufferCall.removedDevices : BufferCall → List Nat
  | .removeDevice deviceId => [deviceId.toNat]
  | _ => []

/-- A command uses the ids that its call was given. -/
theorem BufferCall.uses {call : BufferCall} {command : WorldCommands.RawCommand} (asked : call.command = some command) :
    command.wireUses = call.wireUses ∧ command.deviceUses = call.deviceUses ∧
      command.removedDevices = call.removedDevices := by
  cases call with
  | addWire wireId | removeWire wireId | removeDevice wireId =>
    obtain ⟨id, known, rfl⟩ := Option.map_eq_some_iff.mp asked
    simp only [WorldCommand.wireUses, WorldCommand.deviceUses, WorldCommand.removedDevices, wireUses, deviceUses,
      removedDevices, nonZeroId?_get known, and_self]
  | connectWires a b | disconnectWires a b | addDevice a b =>
    simp only [BufferCall.command, Option.bind_eq_bind, Option.bind_eq_some_iff, Option.some.injEq] at asked
    obtain ⟨first, known, second, known', rfl⟩ := asked
    simp only [WorldCommand.wireUses, WorldCommand.deviceUses, WorldCommand.removedDevices, wireUses, deviceUses,
      removedDevices, nonZeroId?_get known,
      nonZeroId?_get known', and_self]
  | attachTerminal wireId deviceId terminalId | detachTerminal wireId deviceId terminalId =>
    simp only [BufferCall.command, Option.bind_eq_bind, Option.bind_eq_some_iff, Option.some.injEq] at asked
    obtain ⟨wire, known, device, known', terminal, -, rfl⟩ := asked
    simp only [WorldCommand.wireUses, WorldCommand.deviceUses, WorldCommand.removedDevices, wireUses, deviceUses,
      removedDevices, nonZeroId?_get known,
      nonZeroId?_get known', and_self]
  | setDeviceParameter deviceId parameterId value =>
    simp only [BufferCall.command, Option.bind_eq_bind, Option.bind_eq_some_iff, Option.some.injEq] at asked
    obtain ⟨device, known, parameter, -, rfl⟩ := asked
    simp only [WorldCommand.wireUses, WorldCommand.deviceUses, WorldCommand.removedDevices, wireUses, deviceUses,
      removedDevices, nonZeroId?_get known, and_self]
  | clear | encodedSegment | close => cases asked

end WorldCommandBuffer

namespace ElectricalWorld

open WorldCommandBuffer (BufferCall Encodes Accepts)
open WorldCommands (RawCommand)
open WorldIdAllocator (committedPool currentPool Kept)

/-- The commands of the buffer lead from the committed pools to the current ones. -/
structure Pending (world : ElectricalWorld F) (commands : List RawCommand) : Prop where
  usable : world.poisoned = false
  wires : world.wireIds.Sound
  devices : world.deviceIds.Sound
  encodes : Encodes world.commandBuffer commands
  wireRuns : IdPool.Runs maxId world.wireIds.committedPool (commands.flatMap WorldCommand.wireUses) world.wireIds.currentPool
  deviceRuns :
    IdPool.Runs maxId world.deviceIds.committedPool (commands.flatMap WorldCommand.deviceUses) world.deviceIds.currentPool
  records : world.recordCapacity ≤ maxId

/-- The engine, the committed pools and the records stay. -/
structure Leads (before after : ElectricalWorld F) (commands : List RawCommand) : Prop where
  pending : Pending after commands
  world : after.world = before.world
  records : after.records = before.records
  recordCapacity : after.recordCapacity = before.recordCapacity
  wirePool : IdPool.Same before.wireIds.committedPool after.wireIds.committedPool
  devicePool : IdPool.Same before.deviceIds.committedPool after.deviceIds.committedPool

/-- However an operation on the client ends; where it returns, it has asked to remove the devices. -/
def Settles {α : Type} (before : ElectricalWorld F) (commands : List RawCommand) (removed : List Nat)
    (outcome : Outcome (ElectricalWorld F) WorldException α) : Prop :=
  outcome.Meets False
    (fun _ after => ∃ later, Leads before after later ∧
      later.flatMap WorldCommand.removedDevices = commands.flatMap WorldCommand.removedDevices ++ removed)
    fun _ after => ∃ later, Leads before after later ∧
      later.flatMap WorldCommand.removedDevices = commands.flatMap WorldCommand.removedDevices

section Client

variable {before mid after self : ElectricalWorld F} {commands : List RawCommand}

theorem onWires_ok {α : Type} {call : WorldIdAllocator.Java α} {value : α} {wireIds : WorldIdAllocator}
    (run : call self.wireIds = .ok value wireIds) : onWires call self = .ok value { self with wireIds } :=
  Call.zoom_ok run

theorem onDevices_ok {α : Type} {call : WorldIdAllocator.Java α} {value : α} {deviceIds : WorldIdAllocator}
    (run : call self.deviceIds = .ok value deviceIds) : onDevices call self = .ok value { self with deviceIds } :=
  Call.zoom_ok run

theorem onBuffer_ok {α : Type} {call : WorldCommandBuffer.Java α} {value : α} {commandBuffer : WorldCommandBuffer}
    (run : call self.commandBuffer = .ok value commandBuffer) :
    onBuffer call self = .ok value { self with commandBuffer } := Call.zoom_ok run

theorem Leads.refl (h : Pending self commands) : Leads self self commands :=
  ⟨h, rfl, rfl, rfl, .refl _, .refl _⟩

theorem Leads.of_wires (h : Pending self commands) {wireIds : WorldIdAllocator} (kept : Kept self.wireIds wireIds) :
    Leads self { self with wireIds } commands :=
  ⟨⟨h.usable, kept.sound, h.devices, h.encodes, (h.wireRuns.congr_left kept.committed.symm).congr_right kept.current,
    h.deviceRuns, h.records⟩, rfl, rfl, rfl, kept.committed, .refl _⟩

theorem Leads.of_devices (h : Pending self commands) {deviceIds : WorldIdAllocator}
    (kept : Kept self.deviceIds deviceIds) : Leads self { self with deviceIds } commands :=
  ⟨⟨h.usable, h.wires, kept.sound, h.encodes, h.wireRuns,
    (h.deviceRuns.congr_left kept.committed.symm).congr_right kept.current, h.records⟩, rfl, rfl, rfl, .refl _, kept.committed⟩

/-- A command is appended that leads to the current pools. -/
theorem Leads.append (h : Pending self commands) {wireIds deviceIds : WorldIdAllocator}
    {commandBuffer : WorldCommandBuffer} {call : BufferCall} {command : RawCommand}
    (wires : wireIds.Sound) (devices : deviceIds.Sound)
    (wirePool : IdPool.Same self.wireIds.committedPool wireIds.committedPool)
    (devicePool : IdPool.Same self.deviceIds.committedPool deviceIds.committedPool)
    (wireRuns : IdPool.Runs maxId self.wireIds.currentPool call.wireUses wireIds.currentPool)
    (deviceRuns : IdPool.Runs maxId self.deviceIds.currentPool call.deviceUses deviceIds.currentPool)
    (asked : call.command = some command) (encodes : Encodes commandBuffer (commands ++ [command])) :
    Leads self { self with wireIds, deviceIds, commandBuffer } (commands ++ [command]) := by
  obtain ⟨ofWires, ofDevices, -⟩ := BufferCall.uses asked
  refine ⟨⟨h.usable, wires, devices, encodes, ?_, ?_, h.records⟩, rfl, rfl, rfl, wirePool, devicePool⟩
  · rw [List.flatMap_append, List.flatMap_singleton, ofWires]
    exact (h.wireRuns.append wireRuns).congr_left wirePool.symm
  · rw [List.flatMap_append, List.flatMap_singleton, ofDevices]
    exact (h.deviceRuns.append deviceRuns).congr_left devicePool.symm

theorem removedDevices_append {call : BufferCall} {command : RawCommand} (asked : call.command = some command)
    (commands : List RawCommand) : (commands ++ [command]).flatMap WorldCommand.removedDevices =
      commands.flatMap WorldCommand.removedDevices ++ call.removedDevices := by
  obtain ⟨-, -, removed⟩ := BufferCall.uses asked
  rw [List.flatMap_append, List.flatMap_singleton, removed]

theorem requireUsable_run (usable : self.poisoned = false) : requireUsable self = .ok () self := by
  unfold requireUsable
  rw [Call.get_bind, Call.rejectIf, if_neg (by rw [usable]; decide)]

theorem Settles.of_err {α : Type} {outcome : Outcome (ElectricalWorld F) WorldException α} {error : WorldException}
    {removed : List Nat} (h : Pending self commands) (run : outcome = .err error self) :
    Settles self commands removed outcome :=
  Outcome.Meets.of_err run ⟨commands, .refl h, rfl⟩

theorem Settles.of_ok {α : Type} {outcome : Outcome (ElectricalWorld F) WorldException α} {value : α}
    (h : Pending self commands) (run : outcome = .ok value self) : Settles self commands [] outcome :=
  Outcome.Meets.of_ok run ⟨commands, .refl h, (List.append_nil _).symm⟩

/-- A use of a wire is checked. -/
theorem Settles.usableWire {α : Type} (h : Pending self commands) (value generation : JavaInt)
    {removed : List Nat} {rest : WorldCall F α}
    (live : self.wireIds.currentPool.live value.toNat → Settles self commands removed (rest self)) :
    Settles self commands removed ((onWires (WorldIdAllocator.requireUsable value generation) >>= fun _ => rest) self) := by
  rcases WorldIdAllocator.requireUsable_spec h.wires value generation with ⟨e, run⟩ | ⟨run, lives⟩
  · exact .of_err h (Call.bind_err (Call.zoom_err run))
  · have checked : onWires (WorldIdAllocator.requireUsable value generation) self = .ok () self := onWires_ok run
    rw [Call.bind_ok checked]
    exact live lives

theorem Settles.usableDevice {α : Type} (h : Pending self commands) (deviceId generation : JavaInt)
    {removed : List Nat} {rest : WorldCall F α}
    (live : self.deviceIds.currentPool.live deviceId.toNat → Settles self commands removed (rest self)) :
    Settles self commands removed ((onDevices (WorldIdAllocator.requireUsable deviceId generation) >>= fun _ => rest) self) := by
  rcases WorldIdAllocator.requireUsable_spec h.devices deviceId generation with ⟨e, run⟩ | ⟨run, lives⟩
  · exact .of_err h (Call.bind_err (Call.zoom_err run))
  · have checked : onDevices (WorldIdAllocator.requireUsable deviceId generation) self = .ok () self :=
      onDevices_ok run
    rw [Call.bind_ok checked]
    exact live lives

/-- A command that uses ids that are live is appended, or nothing changes. -/
theorem Settles.append (h : Pending self commands) {call : BufferCall} {append : WorldCommandBuffer.Java Unit}
    (accepts : Accepts self.commandBuffer commands call (append self.commandBuffer))
    (wireRuns : IdPool.Runs maxId self.wireIds.currentPool call.wireUses self.wireIds.currentPool)
    (deviceRuns : IdPool.Runs maxId self.deviceIds.currentPool call.deviceUses self.deviceIds.currentPool)
    (removes : call.removedDevices = []) : Settles self commands [] (onBuffer append self) := by
  rcases accepts with ⟨e, run⟩ | ⟨next, command, run, asked, encodes⟩
  · exact .of_err h (Call.zoom_err run)
  · exact Outcome.Meets.of_ok (onBuffer_ok run)
      ⟨_, .append h h.wires h.devices (.refl _) (.refl _) wireRuns deviceRuns asked encodes,
        removes ▸ removedDevices_append asked commands⟩

/-- An append that throws is undone. -/
theorem Settles.rollBack (removed : List Nat) {append : WorldCommandBuffer.Java Unit} {call : BufferCall}
    {rollback : WorldCall F Unit}
    (accepts : Accepts mid.commandBuffer commands call (append mid.commandBuffer))
    (appended : ∀ commandBuffer command, call.command = some command → Encodes commandBuffer (commands ++ [command]) →
      Leads self { mid with commandBuffer } (commands ++ [command]))
    (undone : ∃ last, rollback mid = .ok () last ∧ Leads self last commands)
    (removes : call.removedDevices = removed) : Settles self commands removed (orRollBack (onBuffer append) rollback mid) := by
  unfold orRollBack
  rcases accepts with ⟨e, run⟩ | ⟨next, command, run, asked, encodes⟩
  · obtain ⟨last, undo, leads⟩ := undone
    have threw : onBuffer append mid = .err (.java e) mid := Call.zoom_err run
    rw [threw]
    dsimp only
    rw [undo]
    exact ⟨commands, leads, rfl⟩
  · have went : onBuffer append mid = .ok () { mid with commandBuffer := next } := onBuffer_ok run
    rw [went]
    exact ⟨_, appended next command asked encodes, removes ▸ removedDevices_append asked commands⟩

/-! ### The operations on the client -/

variable (h : Pending self commands) (grants : Grants)

include h

theorem addWire_settles : Settles self commands [] (addWire grants self) := by
  unfold addWire
  rw [Call.bind_ok (requireUsable_run h.usable)]
  rcases WorldIdAllocator.reserve_spec grants.first h.wires with ⟨e, wireIds, run, kept⟩ | ⟨id, wireIds, run, reserved⟩
  · exact Outcome.Meets.of_err (Call.bind_err (Call.zoom_err run)) ⟨commands, .of_wires h kept, rfl⟩
  · obtain ⟨generation, read, current⟩ := reserved.handle
    obtain ⟨last, undo, kept⟩ := WorldIdAllocator.cancelPendingAdd_spec h.wires reserved grants.second current
    have reading : onWires (WorldIdAllocator.generation (WorldIdAllocator.handleOf id)) { self with wireIds } =
        .ok generation { self with wireIds } := onWires_ok read
    rw [Call.bind_ok (onWires_ok run)]
    rw [Call.bind_ok reading]
    refine Call.meets_bind (Settles.rollBack [] (h.encodes.addWire grants.buffer _) ?_ ?_ rfl)
    · intro commandBuffer command asked encodes
      refine .append h reserved.sound h.devices reserved.committed (.refl _) ?_ (.nil (.refl _)) asked encodes
      have natural := WorldIdAllocator.toNat_handleOf reserved.accepts.2.1
      exact .single (natural.symm ▸ reserved.accepts) (natural.symm ▸ reserved.current)
    · exact ⟨{ self with wireIds := last }, onWires_ok undo, .of_wires h kept⟩

theorem addDevice_settles (definitionId : JavaInt) : Settles self commands [] (addDevice grants definitionId self) := by
  unfold addDevice
  rw [Call.bind_ok (requireUsable_run h.usable)]
  by_cases zero : definitionId = 0
  · exact .of_err h (Call.rejectIf_bind_pos zero _)
  rw [Call.rejectIf_bind_neg zero]
  rcases WorldIdAllocator.reserve_spec grants.first h.devices with
    ⟨e, deviceIds, run, kept⟩ | ⟨id, deviceIds, run, reserved⟩
  · exact Outcome.Meets.of_err (Call.bind_err (Call.zoom_err run)) ⟨commands, .of_devices h kept, rfl⟩
  · obtain ⟨generation, read, current⟩ := reserved.handle
    obtain ⟨last, undo, kept⟩ := WorldIdAllocator.cancelPendingAdd_spec h.devices reserved grants.second current
    have reading : onDevices (WorldIdAllocator.generation (WorldIdAllocator.handleOf id)) { self with deviceIds } =
        .ok generation { self with deviceIds } := onDevices_ok read
    rw [Call.bind_ok (onDevices_ok run)]
    rw [Call.bind_ok reading]
    refine Call.meets_bind (Settles.rollBack [] (h.encodes.addDevice grants.buffer _ definitionId) ?_ ?_ rfl)
    · intro commandBuffer command asked encodes
      refine .append h h.wires reserved.sound (.refl _) reserved.committed (.nil (.refl _)) ?_ asked encodes
      have natural := WorldIdAllocator.toNat_handleOf reserved.accepts.2.1
      exact .single (natural.symm ▸ reserved.accepts) (natural.symm ▸ reserved.current)
    · exact ⟨{ self with deviceIds := last }, onDevices_ok undo, .of_devices h kept⟩

theorem removeWire_settles (wireId : WireHandle) : Settles self commands [] (removeWire grants wireId self) := by
  unfold removeWire
  rw [Call.bind_ok (requireUsable_run h.usable)]
  rcases WorldIdAllocator.remove_spec grants.first h.wires wireId.value wireId.generation with
    ⟨e, run⟩ | ⟨wireIds, run, removed⟩
  · exact .of_err h (Call.bind_err (Call.zoom_err run))
  · obtain ⟨last, undo, kept⟩ := WorldIdAllocator.cancelPendingRemove_spec removed
    rw [Call.bind_ok (onWires_ok run)]
    refine Settles.rollBack [] (h.encodes.removeWire grants.buffer _) ?_ ?_ rfl
    · intro commandBuffer command asked encodes
      refine .append h removed.sound h.devices removed.committed (.refl _) ?_ (.nil (.refl _)) asked encodes
      exact .single removed.accepts removed.current
    · exact ⟨{ self with wireIds := last }, onWires_ok undo, .of_wires h kept⟩

theorem removeDevice_settles (deviceId generation : JavaInt) :
    Settles self commands [deviceId.toNat] (removeDevice grants deviceId generation self) := by
  unfold removeDevice
  rw [Call.bind_ok (requireUsable_run h.usable)]
  rcases WorldIdAllocator.remove_spec grants.first h.devices deviceId generation with
    ⟨e, run⟩ | ⟨deviceIds, run, removed⟩
  · exact .of_err h (Call.bind_err (Call.zoom_err run))
  · obtain ⟨last, undo, kept⟩ := WorldIdAllocator.cancelPendingRemove_spec removed
    rw [Call.bind_ok (onDevices_ok run)]
    refine Settles.rollBack [deviceId.toNat] (h.encodes.removeDevice grants.buffer _) ?_ ?_ rfl
    · intro commandBuffer command asked encodes
      refine .append h h.wires removed.sound (.refl _) removed.committed (.nil (.refl _)) ?_ asked encodes
      exact .single removed.accepts removed.current
    · exact ⟨{ self with deviceIds := last }, onDevices_ok undo, .of_devices h kept⟩

theorem connectWires_settles (wireAId wireBId : WireHandle) : Settles self commands [] (connectWires grants wireAId wireBId self) := by
  unfold connectWires
  rw [Call.bind_ok (requireUsable_run h.usable)]
  refine Settles.usableWire h _ _ fun liveA => Settles.usableWire h _ _ fun liveB => ?_
  by_cases same : wireAId = wireBId
  · exact .of_err h (Call.rejectIf_bind_pos same _)
  rw [Call.rejectIf_bind_neg same]
  exact Settles.append h (h.encodes.connectWires grants.buffer _ _) (.cons liveA (.cons liveB (.nil (.refl _))))
    (.nil (.refl _)) rfl

theorem disconnectWires_settles (wireAId wireBId : WireHandle) :
    Settles self commands [] (disconnectWires grants wireAId wireBId self) := by
  unfold disconnectWires
  rw [Call.bind_ok (requireUsable_run h.usable)]
  refine Settles.usableWire h _ _ fun liveA => Settles.usableWire h _ _ fun liveB => ?_
  by_cases same : wireAId = wireBId
  · exact .of_err h (Call.rejectIf_bind_pos same _)
  rw [Call.rejectIf_bind_neg same]
  exact Settles.append h (h.encodes.disconnectWires grants.buffer _ _) (.cons liveA (.cons liveB (.nil (.refl _))))
    (.nil (.refl _)) rfl

theorem attachTerminal_settles (wireId : WireHandle) (deviceId deviceGeneration terminalId : JavaInt) :
    Settles self commands [] (attachTerminal grants wireId deviceId deviceGeneration terminalId self) := by
  unfold attachTerminal
  rw [Call.bind_ok (requireUsable_run h.usable)]
  refine Settles.usableWire h _ _ fun live => Settles.usableDevice h _ _ fun resident => ?_
  exact Settles.append h (h.encodes.attachTerminal grants.buffer _ _ _) (.single live (.refl _))
    (.single resident (.refl _)) rfl

theorem detachTerminal_settles (wireId : WireHandle) (deviceId deviceGeneration terminalId : JavaInt) :
    Settles self commands [] (detachTerminal grants wireId deviceId deviceGeneration terminalId self) := by
  unfold detachTerminal
  rw [Call.bind_ok (requireUsable_run h.usable)]
  refine Settles.usableWire h _ _ fun live => Settles.usableDevice h _ _ fun resident => ?_
  exact Settles.append h (h.encodes.detachTerminal grants.buffer _ _ _) (.single live (.refl _))
    (.single resident (.refl _)) rfl

theorem setDeviceParameter_settles (deviceId deviceGeneration parameterId : JavaInt) (value : JavaDouble) :
    Settles self commands [] (setDeviceParameter grants deviceId deviceGeneration parameterId value self) := by
  unfold setDeviceParameter
  rw [Call.bind_ok (requireUsable_run h.usable)]
  refine Settles.usableDevice h _ _ fun resident => ?_
  exact Settles.append h (h.encodes.setDeviceParameter grants.buffer _ _ _) (.nil (.refl _))
    (.single resident (.refl _)) rfl

end Client

end ElectricalWorld

end Hynergy
