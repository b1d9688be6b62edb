import Hynergy.Network.DeviceOperations
import Mathlib.Logic.Relation

/-!
# Runs of the network

Any sequence of operations, failed ones included, with definitions registered in between.
-/

namespace Hynergy

open Lib

variable {F : Type}

namespace Network

variable {registry : DefinitionRegistry F} {self : Network F}

theorem Consistent.register {next : DefinitionRegistry F} (h : Consistent registry self)
    (extends' : next.Extends registry) : Consistent next self := by
  refine ⟨⟨⟨fun chunk member => ?_, h.arena.packed, h.arena.loaded, h.arena.indexes, h.arena.hints⟩,
    h.nodup, h.toWires⟩, h.wireBound, h.deviceBound, h.edges⟩
  have ok := h.arena.chunks chunk member
  obtain ⟨definition, known, counts⟩ := ok.definition
  exact ⟨ok.shaped, ok.occupied, ok.bounded, definition, extends' _ _ known, counts⟩

theorem Consistent.empty (registry : DefinitionRegistry F) :
    Consistent registry ({} : Network F) := by
  have nothing : ∀ x y, ¬ Lists ({} : Network F) x y := by
    intro x y listed
    cases x with
    | wire id =>
      obtain ⟨slot, live, -⟩ := listed
      simp [wireSlot] at live
    | terminal device port fits =>
      obtain ⟨row, found, -⟩ := listed
      simp [record, DeviceArena.record, lookup, DeviceArena.locAt] at found
  refine ⟨⟨⟨by simp, by simp, by simp, ⟨?_, ?_⟩, ⟨by simp, by simp⟩⟩, by simp [wireSlot], ?_⟩,
    by simp, by simp [DeviceArena.directoryLen],
    ⟨fun x y edge => absurd edge (nothing x y), fun x => nothing x x⟩⟩
  · simp [DeviceArena.table, ChunkTable.rowAt]
  · simp [DeviceArena.locAt]
  · simp [record, DeviceArena.record, lookup, DeviceArena.locAt]

inductive Operation (F : Type) where
  | addWire (id : WireId)
  | removeWire (id : WireId)
  | connectWires (wireA wireB : WireId)
  | disconnectWires (wireA wireB : WireId)
  | attachTerminal (wire : WireId) (device : DeviceId) (terminal : TerminalId)
  | detachTerminal (wire : WireId) (device : DeviceId) (terminal : TerminalId)
  /-- An insertion that is discarded. -/
  | prepareAddDevice (id : DeviceId) (definitionId : DefinitionId)
  | addDevice (id : DeviceId) (definitionId : DefinitionId)
  | removeDevice (id : DeviceId)
  | setDeviceParameter (id : DeviceId) (parameter : ParameterId) (value : F)

variable [F64 F]

def Operation.apply (registry : DefinitionRegistry F) :
    Operation F → Call (Network F) NetworkModelError Unit
  | .addWire id => Network.addWire id
  | .removeWire id => Network.removeWire id
  | .connectWires wireA wireB => Network.connectWires wireA wireB
  | .disconnectWires wireA wireB => Network.disconnectWires wireA wireB
  | .attachTerminal wire device terminal => Network.attachTerminal wire device terminal
  | .detachTerminal wire device terminal => Network.detachTerminal wire device terminal
  | .prepareAddDevice id definitionId => do
    let _prepared ← Network.prepareAddDevice registry id definitionId
  | .addDevice id definitionId => do
    let _result ← Network.addDevice registry id definitionId
  | .removeDevice id => do
    let _result ← Network.removeDevice id
  | .setDeviceParameter id parameter value => Network.setDeviceParameter registry id parameter value

inductive Step : DefinitionRegistry F × Network F → DefinitionRegistry F × Network F → Prop
  | register {registry next : DefinitionRegistry F} {network : Network F}
      (extends' : next.Extends registry) : Step (registry, network) (next, network)
  | call {registry : DefinitionRegistry F} {network after : Network F} (operation : Operation F)
      (leaves : (operation.apply registry network).Leaves after) :
      Step (registry, network) (registry, after)

/-- A failed operation leaves the network as it was; only `DeviceArenaExhausted` may have
appended empty slots to the chunk hints, which no lookup tells from absent ones. -/
def Unchanged (error : NetworkModelError) (before after : Network F) : Prop :=
  after = before ∨ error = .deviceArenaExhausted ∧
    ∃ n, after = before.withHints (before.deviceArena.activeChunks ++ List.replicate n none)

theorem Operation.spec (h : Consistent registry self) (operation : Operation F) :
    (∃ next, operation.apply registry self = .ok () next ∧ Consistent registry next) ∨
      ∃ error next, operation.apply registry self = .err error next ∧ Consistent registry next ∧
        Unchanged error self next := by
  have failed : ∀ {e : NetworkModelError}, operation.apply registry self = .err e self →
      ∃ error next, operation.apply registry self = .err error next ∧ Consistent registry next ∧
        Unchanged error self next := fun run => ⟨_, self, run, h, Or.inl rfl⟩
  cases operation with
  | addWire id =>
    rcases addWire_spec h id with ⟨next, run, consistent, -⟩ | ⟨e, run⟩
    · exact Or.inl ⟨next, run, consistent⟩
    · exact Or.inr (failed run)
  | removeWire id =>
    rcases removeWire_spec h id with ⟨next, run, consistent, -⟩ | ⟨⟨e, run⟩, -⟩
    · exact Or.inl ⟨next, run, consistent⟩
    · exact Or.inr (failed run)
  | connectWires a b =>
    rcases connectWires_spec h a b with ⟨next, run, -, -, -, -, relinked⟩ | ⟨e, run⟩
    · exact Or.inl ⟨next, run, relinked.consistent⟩
    · exact Or.inr (failed run)
  | disconnectWires a b =>
    rcases disconnectWires_spec h a b with ⟨next, run, -, -, relinked⟩ | ⟨e, run⟩
    · exact Or.inl ⟨next, run, relinked.consistent⟩
    · exact Or.inr (failed run)
  | attachTerminal wire device terminal =>
    rcases attachTerminal_spec h wire device terminal with ⟨next, _, run, -, -, -, relinked⟩ | ⟨e, run⟩
    · exact Or.inl ⟨next, run, relinked.consistent⟩
    · exact Or.inr (failed run)
  | detachTerminal wire device terminal =>
    rcases detachTerminal_spec h wire device terminal with ⟨next, _, run, -, relinked⟩ | ⟨e, run⟩
    · exact Or.inl ⟨next, run, relinked.consistent⟩
    · exact Or.inr (failed run)
  | prepareAddDevice id definitionId =>
    rcases prepareAddDevice_spec h id definitionId with
      ⟨_, _, active, run, -, -, consistent, -⟩ | ⟨e, run⟩ | ⟨n, run, consistent⟩
    · exact Or.inl ⟨_, Call.bind_ok run, consistent⟩
    · exact Or.inr (failed (Call.bind_err run))
    · exact Or.inr ⟨_, _, Call.bind_err run, consistent, Or.inr ⟨rfl, n, rfl⟩⟩
  | addDevice id definitionId =>
    rcases prepareAddDevice_spec h id definitionId with
      ⟨prepared, _, active, run, -, -, consistent, ready⟩ | ⟨e, run⟩ | ⟨n, run, consistent⟩
    · obtain ⟨result, next, commit, consistent', -⟩ := commitAddDevice_spec consistent ready
      exact Or.inl ⟨next, Call.bind_ok ((Call.bind_ok run).trans commit), consistent'⟩
    · exact Or.inr (failed (Call.bind_err (Call.bind_err run)))
    · exact Or.inr ⟨_, _, Call.bind_err (Call.bind_err run), consistent, Or.inr ⟨rfl, n, rfl⟩⟩
  | removeDevice id =>
    rcases removeDevice_spec h id with ⟨_, _, _, result, next, run, consistent, -⟩ | ⟨⟨e, run⟩, -⟩
    · exact Or.inl ⟨next, Call.bind_ok run, consistent⟩
    · exact Or.inr (failed (Call.bind_err run))
  | setDeviceParameter id parameter value =>
    rcases setDeviceParameter_spec h id parameter value with ⟨_, next, run, consistent, -⟩ | ⟨e, run⟩
    · exact Or.inl ⟨next, run, consistent⟩
    · exact Or.inr (failed run)

theorem run_consistent {start : DefinitionRegistry F}
    (run : Relation.ReflTransGen Step (start, ({} : Network F)) (registry, self)) :
    Consistent registry self := by
  suffices ∀ state, Relation.ReflTransGen Step (start, ({} : Network F)) state →
      Consistent state.1 state.2 from this _ run
  intro state run
  induction run with
  | refl => exact .empty start
  | tail _ step ih =>
    cases step with
    | register extends' => exact ih.register extends'
    | call operation leaves =>
      rcases operation.spec ih with ⟨next, run, consistent⟩ | ⟨e, next, run, consistent, -⟩
      · rwa [leaves.of_ok run]
      · rwa [leaves.of_err run]

/-- In every reachable network each edge is stored at both of its ends and once, no end refers
to a removed one, and an operation that fails leaves the network as it was. -/
theorem network_links_consistent {start : DefinitionRegistry F}
    (run : Relation.ReflTransGen Step (start, ({} : Network F)) (registry, self)) :
    (∀ v w, self.Lists (.wire w) (.wire v) ↔ self.Lists (.wire v) (.wire w)) ∧
    (∀ w, ¬ self.Lists (.wire w) (.wire w)) ∧
    (∀ w slot, self.wireSlot w = some slot → slot.Nodup) ∧
    (∀ w d t fits, self.Lists (.wire w) (.terminal d t fits) ↔
      ∃ row, self.record d = some row ∧ row.terminals[t.index]? = some (some (.wire w))) ∧
    (∀ x y, self.Lists x y → self.Live x ∧ self.Live y) ∧
    ∀ operation : Operation F, (∃ next, operation.apply registry self = .ok () next) ∨
      ∃ error next, operation.apply registry self = .err error next ∧ Unchanged error self next := by
  have h := run_consistent run
  refine ⟨fun v w => ⟨h.edges.symm _ _, h.edges.symm _ _⟩, fun w => h.edges.irrefl _, h.nodup, ?_, ?_,
    fun operation => ?_⟩
  · intro w d t fits
    exact ⟨h.edges.symm _ _, h.edges.symm (.terminal d t fits) (.wire w)⟩
  · exact fun x y listed => ⟨listed.live, (h.edges.symm x y listed).live⟩
  · rcases operation.spec h with ⟨next, run, -⟩ | ⟨error, next, run, -, unchanged⟩
    · exact Or.inl ⟨next, run⟩
    · exact Or.inr ⟨error, next, run, unchanged⟩

/-- Two wires connected to each other. -/
theorem network_links_consistent_pair :
    ∃ network : Network Float,
      network.Lists (.wire (.ofIndex 0 (by decide))) (.wire (.ofIndex 1 (by decide))) ∧
      network.Lists (.wire (.ofIndex 1 (by decide))) (.wire (.ofIndex 0 (by decide))) := by
  have run : Relation.ReflTransGen Step ((DefinitionRegistry.new : DefinitionRegistry Float), {}) _ :=
    .tail (.tail (.single (.call (.addWire (.ofIndex 0 (by decide))) (Or.inl ⟨(), rfl⟩)))
      (.call (.addWire (.ofIndex 1 (by decide))) (Or.inl ⟨(), rfl⟩)))
      (.call (.connectWires (.ofIndex 0 (by decide)) (.ofIndex 1 (by decide))) (Or.inl ⟨(), rfl⟩))
  have sound := network_links_consistent run
  refine ⟨_, ?listed, (sound.1 _ _).mp ?listed⟩
  exact ⟨[.wire (.ofIndex 1 (by decide))], rfl, List.mem_cons_self⟩

end Network

end Hynergy
