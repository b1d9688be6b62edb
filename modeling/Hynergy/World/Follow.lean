import Hynergy.Topology.DeviceAddition
import Hynergy.Topology.DeviceRemoval
import Hynergy.Topology.NetMerge
import Hynergy.Topology.TerminalEdits
import Hynergy.Topology.WireRemoval
import Hynergy.World.Commands

/-!
# The stores follow the network

What a command that succeeds leaves: the derived topology of the edited network, and the
physical states of every device that was there before.
-/

namespace Hynergy

open Lib

variable {F : Type}

/-- The chunk hints are of no consequence to the topology. -/
theorem DerivedTopology.Maintained.withHints {registry : DefinitionRegistry F} {network : Network F}
    {topology : DerivedTopology} (h : Maintained registry network topology) {active : List (Option Nat)}
    (consistent : (network.withHints active).Consistent registry) :
    Maintained registry (network.withHints active) topology := by
  have lists := @Network.lists_withHints _ network active
  have edges : (network.withHints active).WireEdge = network.WireEdge := by
    funext u v
    rw [Network.WireEdge, Network.WireEdge, lists]
  refine ⟨consistent, ⟨h.nets.sound, h.nets.live, h.nets.named, h.nets.nodup, h.nets.mapped, h.nets.wires,
    h.nets.terminals, edges ▸ h.nets.coarse, edges ▸ h.nets.exact⟩, ?_, h.invalidation⟩
  exact ⟨h.islands.sound, ⟨consistent.arena, h.islands.beside.aligned.shaped, h.islands.beside.aligned.heads⟩, h.islands.map, h.islands.removed,
    h.islands.alive, h.islands.named, h.islands.nodup, h.islands.members, h.islands.nonempty,
    h.islands.anchored, h.islands.reached, h.islands.coarse, h.islands.exact⟩

namespace Stores

variable {registry : DefinitionRegistry F} {self next : Stores F}

/-- The stores agree with the network. -/
structure Sound (registry : DefinitionRegistry F) (stores : Stores F) : Prop where
  maintained : DerivedTopology.Maintained registry stores.network stores.derivedTopology
  scratch : stores.topologyScratch.Sound
  states : PhysicalStateStore.Aligned registry stores.physicalState stores.network.deviceArena

/-- The states of a device. -/
def statesOf (stores : Stores F) (device : DeviceId) : Option (StateRow F) :=
  stores.physicalState.rowOf stores.network.deviceArena device

/-- The topology has followed the network from `before`, and devices kept their states; a new one
has none yet. -/
structure Followed [F64 F] (registry : DefinitionRegistry F) (before after : Stores F) : Prop where
  sound : Sound registry after
  kept : ∀ device, (before.network.record device).isSome = true → (after.network.record device).isSome = true →
    after.statesOf device = before.statesOf device
  fresh : ∀ device, before.network.record device = none → (after.network.record device).isSome = true →
    ∃ row, after.statesOf device = some row ∧ row.initialized = false ∧ ∀ v ∈ row.values, v = F64.zero

theorem Sound.consistent (h : Sound registry self) : self.network.Consistent registry := h.maintained.consistent

/-- An edit that leaves every device in its place. -/
theorem Followed.of_places [F64 F] (h : Sound registry self) {network : Network F} {topology : DerivedTopology}
    {scratch : TraversalScratch} (maintained : DerivedTopology.Maintained registry network topology)
    (sound : scratch.Sound) (directory : network.deviceArena.directory = self.network.deviceArena.directory)
    (heads : network.deviceArena.heads = self.network.deviceArena.heads) :
    Followed registry self
      { self with network, derivedTopology := topology, topologyScratch := scratch } := by
  obtain ⟨aligned, rows⟩ := Sidecar.Aligned.congr h.states directory heads
  have same : ∀ device, statesOf { self with network, derivedTopology := topology, topologyScratch := scratch }
      device = self.statesOf device := fun device => congrFun rows device
  refine ⟨⟨maintained, sound, aligned⟩, fun device _ _ => same device, fun device free live => ?_⟩
  have before : (self.statesOf device).isSome = (self.network.record device).isSome :=
    Sidecar.Aligned.rowOf_isSome h.states h.consistent.arena device
  have after : (self.statesOf device).isSome = (network.record device).isSome := by
    rw [← same]
    exact Sidecar.Aligned.rowOf_isSome aligned maintained.consistent.arena device
  rw [before, free] at after
  rw [← after] at live
  simp at live

theorem onNetwork_ok {α : Type} {call : Call (Network F) NetworkModelError α} {value : α} {network : Network F}
    (run : call self.network = .ok value network) :
    onNetwork call self = .ok value { self with network } := Call.zoom_ok run

theorem onNetwork_err {α : Type} {call : Call (Network F) NetworkModelError α} {error : NetworkModelError}
    {network : Network F} (run : call self.network = .err error network) :
    onNetwork call self = .err error { self with network } := Call.zoom_err run

/-- The network does what it is asked. -/
def Accepts {α : Type} (network : Network F) (call : Call (Network F) NetworkModelError α) : Prop :=
  ∃ value after, call network = .ok value after

theorem not_accepts {α : Type} {call : Call (Network F) NetworkModelError α} {network after : Network F}
    {error : NetworkModelError} (run : call network = .err error after) : ¬ Accepts network call := by
  rintro ⟨_, _, ran⟩
  exact absurd (run.symm.trans ran) nofun

/-! ### Commands that keep the devices in place -/

variable [F64 F]

/-- A call on the network, and then an edit of the topology. -/
theorem retopologize_meets (h : Sound registry self) {call : Call (Network F) NetworkModelError Unit}
    {edit : Network F → DerivedTopology → Option DerivedTopology} (short : Prop)
    (calls : (∃ network, call self.network = .ok () network ∧
      network.deviceArena.directory = self.network.deviceArena.directory ∧
      network.deviceArena.heads = self.network.deviceArena.heads ∧
      Returns short (edit network self.derivedTopology) fun topology =>
        ¬ short ∧ DerivedTopology.Maintained registry network topology) ∨
      ∃ e, call self.network = .err e self.network) :
    Outcome.Meets ((do onNetwork call; retopologize edit : Command F Unit) self) (Accepts self.network call ∧ short)
      (fun _ after => ¬ (Accepts self.network call ∧ short) ∧ Followed registry self after)
      fun _ after => ¬ (Accepts self.network call ∧ short) ∧ after = self := by
  rcases calls with ⟨network, run, directory, heads, edits⟩ | ⟨e, run⟩
  · rw [Call.bind_ok (onNetwork_ok run)]
    unfold retopologize
    rw [Call.get_bind]
    dsimp only
    cases edited : edit network self.derivedTopology with
    | none =>
      rw [edited] at edits
      exact ⟨⟨(), network, run⟩, edits⟩
    | some topology =>
      obtain ⟨enough, maintained⟩ := edits.of_run edited
      exact ⟨fun few => enough few.2, .of_places h maintained h.scratch directory heads⟩
  · exact .of_err (Call.bind_err (onNetwork_err run)) ⟨fun few => not_accepts run few.1, rfl⟩

/-- An edit of the topology that always returns. -/
theorem retopologize_returns (h : Sound registry self) {call : Call (Network F) NetworkModelError Unit}
    {edit : Network F → DerivedTopology → Option DerivedTopology}
    (calls : (∃ network next, call self.network = .ok () network ∧
      network.deviceArena.directory = self.network.deviceArena.directory ∧
      network.deviceArena.heads = self.network.deviceArena.heads ∧
      edit network self.derivedTopology = some next ∧ DerivedTopology.Maintained registry network next) ∨
      ∃ e, call self.network = .err e self.network) :
    Outcome.Meets ((do onNetwork call; retopologize edit : Command F Unit) self) False
      (fun _ after => ¬ False ∧ Followed registry self after) fun _ after => ¬ False ∧ after = self := by
  refine (retopologize_meets h False ?_).mono And.right (fun _ _ post => ⟨not_false, post.2⟩)
    fun _ _ post => ⟨not_false, post.2⟩
  exact calls.imp_left fun ⟨network, next, run, directory, heads, edited, maintained⟩ =>
    ⟨network, run, directory, heads, .of_eq_some edited ⟨not_false, maintained⟩⟩

/-- A call on the network, and then an edit of the topology that traverses it. -/
theorem retraverse_meets (h : Sound registry self) {call : Call (Network F) NetworkModelError Unit}
    {edit : Network F → DerivedTopology → TraversalScratch → Option (DerivedTopology × TraversalScratch)}
    (short : Prop)
    (calls : (∃ network, call self.network = .ok () network ∧
      network.deviceArena.directory = self.network.deviceArena.directory ∧
      network.deviceArena.heads = self.network.deviceArena.heads ∧
      Returns short (edit network self.derivedTopology self.topologyScratch) fun result =>
        ¬ short ∧ DerivedTopology.Maintained registry network result.1 ∧ result.2.Sound) ∨
      ∃ e, call self.network = .err e self.network) :
    Outcome.Meets ((do onNetwork call; retraverse edit : Command F Unit) self) (Accepts self.network call ∧ short)
      (fun _ after => ¬ (Accepts self.network call ∧ short) ∧ Followed registry self after)
      fun _ after => ¬ (Accepts self.network call ∧ short) ∧ after = self := by
  rcases calls with ⟨network, run, directory, heads, edits⟩ | ⟨e, run⟩
  · rw [Call.bind_ok (onNetwork_ok run)]
    unfold retraverse
    rw [Call.get_bind]
    dsimp only
    cases edited : edit network self.derivedTopology self.topologyScratch with
    | none =>
      rw [edited] at edits
      exact ⟨⟨(), network, run⟩, edits⟩
    | some result =>
      obtain ⟨enough, maintained, sound⟩ := edits.of_run edited
      exact ⟨fun few => enough few.2, .of_places h maintained sound directory heads⟩
  · exact .of_err (Call.bind_err (onNetwork_err run)) ⟨fun few => not_accepts run few.1, rfl⟩

/-- Why a command may panic: the derived topology has fewer identifiers left than the command needs, an
island to be changed has the last revision, the states of a new device do not fit their chunk, or a device
is removed that is not there. -/
def Excused (registry : DefinitionRegistry F) (self : Stores F) : WorldCommand F → Prop
  | .addWire wire => Accepts self.network (Network.addWire wire) ∧ self.derivedTopology.nets.unused = 0
  | .removeWire wire => Accepts self.network (Network.removeWire wire) ∧
    DerivedTopology.RemovalShort ((self.network.wiring registry).withoutWire wire) self.derivedTopology wire
  | .disconnectWires wireA wireB => Accepts self.network (Network.disconnectWires wireA wireB) ∧
    DerivedTopology.DisconnectShort ((self.network.wiring registry).withoutLink (.wire wireA) (.wire wireB))
      self.derivedTopology wireA
  | .addDevice device definitionId => ∃ prepared network definition,
    Network.prepareAddDevice registry device definitionId self.network = .ok prepared network ∧
      registry.get definitionId = some definition ∧
      (PhysicalStateStore.RowsOverflow prepared.location.row definition ∨
        self.derivedTopology.islands.unused < definition.partitionCount)
  | .removeDevice device => self.network.record device = none ∨
    ∃ prepared, self.derivedTopology.prepareDeviceRemoval self.network device = some prepared ∧
      DerivedTopology.IslandsShort ((self.network.wiring registry).withoutDevice device) self.derivedTopology
        prepared.affectedIslands
  | .detachTerminal wire device terminal => Accepts self.network (Network.detachTerminal wire device terminal) ∧
    ∃ fits, DerivedTopology.DetachShort
      ((self.network.wiring registry).withoutLink (.wire wire) (.terminal device terminal fits)) self.derivedTopology wire
  | .connectWires .. | .attachTerminal .. | .setDeviceParameter .. => False

/-- The command panics just where it is excused; where it does not, the stores follow the network or are as before. -/
def Keeps (registry : DefinitionRegistry F) (self : Stores F) (command : WorldCommand F) : Prop :=
  Outcome.Meets (applyCommand registry command self) (Excused registry self command)
    (fun _ after => ¬ Excused registry self command ∧ Followed registry self after)
    fun _ after => ¬ Excused registry self command ∧ after = self

theorem addWire_keeps (h : Sound registry self) (wire : WireId) : Keeps registry self (.addWire wire) := by
  refine retopologize_meets h _ ?_
  rcases Network.addWire_spec h.consistent wire with ⟨network, run, consistent, added⟩ | failed
  · refine Or.inl ⟨network, run, by rw [added.arena], by rw [added.arena], ?_⟩
    exact (DerivedTopology.addWire_maintains h.maintained consistent added).mono id
      fun _ m => ⟨Nat.ne_of_gt m.1, m.2.maintained⟩
  · exact Or.inr failed

section Wires

variable (partitioned : registry.Partitioned) (h : Sound registry self)

include partitioned h

theorem removeWire_keeps (wire : WireId) : Keeps registry self (.removeWire wire) := by
  refine retraverse_meets h _ ?_
  rcases Network.removeWire_spec h.consistent wire with ⟨network, run, consistent, removed⟩ | ⟨failed, -⟩
  · refine Or.inl ⟨network, run, removed.devices.directory, removed.devices.heads, ?_⟩
    rw [← removed.wiring]
    exact (DerivedTopology.removeWire_maintains partitioned h.maintained consistent removed h.scratch).mono id
      fun _ m => ⟨m.1, m.2.1.maintained, m.2.2⟩
  · exact Or.inr failed

theorem connectWires_keeps (wireA wireB : WireId) : Keeps registry self (.connectWires wireA wireB) := by
  refine retopologize_returns h ?_
  rcases Network.connectWires_spec h.consistent wireA wireB with
    ⟨network, run, -, liveA, liveB, -, relinked⟩ | failed
  · obtain ⟨next, edited, m⟩ := DerivedTopology.connectWires_maintains partitioned h.maintained
      (Option.isSome_iff_exists.mpr liveA) (Option.isSome_iff_exists.mpr liveB) relinked
    exact Or.inl ⟨network, next, run, relinked.same.devices.directory, relinked.same.devices.heads, edited, m.maintained⟩
  · exact Or.inr failed

theorem disconnectWires_keeps (wireA wireB : WireId) : Keeps registry self (.disconnectWires wireA wireB) := by
  refine retraverse_meets h _ ?_
  rcases Network.disconnectWires_spec h.consistent wireA wireB with
    ⟨network, run, -, edge, relinked⟩ | failed
  · refine Or.inl ⟨network, run, relinked.same.devices.directory, relinked.same.devices.heads, ?_⟩
    rw [← relinked.wiring]
    exact (DerivedTopology.disconnectWires_maintains partitioned h.maintained edge relinked h.scratch).mono id
      fun _ m => ⟨m.1, m.2.1.maintained, m.2.2⟩
  · exact Or.inr failed

theorem attachTerminal_keeps (wire : WireId) (device : DeviceId) (terminal : TerminalId) :
    Keeps registry self (.attachTerminal wire device terminal) := by
  refine retopologize_returns h ?_
  rcases Network.attachTerminal_spec h.consistent wire device terminal with
    ⟨network, fits, run, live, -, free, linked⟩ | failed
  · obtain ⟨next, edited, m⟩ := DerivedTopology.attachTerminal_maintains partitioned h.maintained
      (Option.isSome_iff_exists.mpr live) free linked
    exact Or.inl ⟨network, next, run, linked.same.devices.directory, linked.same.devices.heads, edited, m.maintained⟩
  · exact Or.inr failed

theorem detachTerminal_keeps (wire : WireId) (device : DeviceId) (terminal : TerminalId) :
    Keeps registry self (.detachTerminal wire device terminal) := by
  refine retraverse_meets h _ ?_
  rcases Network.detachTerminal_spec h.consistent wire device terminal with
    ⟨network, fits, run, listed, unlinked⟩ | failed
  · refine Or.inl ⟨network, run, unlinked.same.devices.directory, unlinked.same.devices.heads, ?_⟩
    exact (DerivedTopology.detachTerminal_maintains partitioned h.maintained listed unlinked h.scratch).mono
      (fun few => ⟨fits, unlinked.wiring ▸ few⟩) fun _ m => ⟨fun few => m.1 (unlinked.wiring ▸ few.2), m.2.1.maintained, m.2.2⟩
  · exact Or.inr failed

theorem setDeviceParameter_keeps (device : DeviceId) (parameter : ParameterId) (value : F) :
    Keeps registry self (.setDeviceParameter device parameter value) := by
  refine retopologize_returns h ?_
  rcases Network.setDeviceParameter_spec h.consistent device parameter value with
    ⟨row, network, run, consistent, set⟩ | failed
  · obtain ⟨next, edited, m, -⟩ := DerivedTopology.setParameter_maintains partitioned h.maintained consistent set
    exact Or.inl ⟨network, next, run, set.edited.directory, set.edited.heads, edited, m.maintained⟩
  · exact Or.inr failed

end Wires

end Stores

end Hynergy
