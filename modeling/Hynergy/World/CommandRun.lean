import Hynergy.Model.Building
import Hynergy.Network.NetworkRun
import Hynergy.World.DeviceCommands
import Mathlib.Data.List.Count

/-!
# Runs of commands

From the empty world, any sequence of commands, rejected ones included, with definitions
registered in between, leaves a derived topology that is the one the network defines.
-/

namespace Hynergy

open Lib Relation

variable {F : Type}

namespace DerivedTopology

variable {registry next : DefinitionRegistry F} {network : Network F} {self : DerivedTopology}

/-! ### The topology the network defines -/

/-- A terminal of the component, on one of the wires. -/
def isTerminalOn (registry : DefinitionRegistry F) (network : Network F) (wires : List WireId)
    (c : DeviceComponent) (t : Nat) : Bool :=
  (network.attachedWire c.device t).any (fun wire => decide (wire ∈ wires)) &&
    (network.definitionOf registry c.device).any fun definition =>
      decide (definition.terminalPartitions[t]? = some c.partition)

def terminalsOn (registry : DefinitionRegistry F) (network : Network F) (wires : List WireId)
    (c : DeviceComponent) : Nat :=
  (List.range (network.terminalCount c.device)).countP (isTerminalOn registry network wires c)

/-- A partition of a resident device. -/
def IsComponent (registry : DefinitionRegistry F) (network : Network F) (c : DeviceComponent) : Prop :=
  ∃ definition, network.definitionOf registry c.device = some definition ∧
    c.partition.index < definition.partitionCount

/-- Nets and components, joined where a terminal of the component is attached to a wire of the net. -/
def AttachedTo (registry : DefinitionRegistry F) (network : Network F) (topology : DerivedTopology) :
    IslandVertex → IslandVertex → Prop
  | .net id, .component c | .component c, .net id =>
    ∃ net, topology.nets.get id = some net ∧ 0 < terminalsOn registry network net.wires c
  | _, _ => False

/-- The derived topology is the one the network defines. -/
structure Defined (registry : DefinitionRegistry F) (network : Network F) (topology : DerivedTopology) :
    Prop where
  wires : ∀ wire, network.LiveWire wire ↔ ∃ id net, topology.nets.get id = some net ∧ wire ∈ net.wires
  oneNet : ∀ wire id net, topology.nets.get id = some net → (wire ∈ net.wires ↔ topology.wireNet wire = some id)
  distinct : ∀ id net, topology.nets.get id = some net → net.wires.Nodup ∧ net.wires ≠ []
  nets : ∀ u v, network.LiveWire u → network.LiveWire v →
    (topology.wireNet u = topology.wireNet v ↔ ReflTransGen network.WireEdge u v)
  terminals : ∀ id net, topology.nets.get id = some net → ∀ c,
    net.terminalComponents.count c = terminalsOn registry network net.wires c
  components : ∀ c, IsComponent registry network c ↔
    ∃ id island, topology.islands.get id = some island ∧ c ∈ island.components
  oneIsland : ∀ c id island, topology.islands.get id = some island →
    (c ∈ island.components ↔ topology.islandOf network c = some id)
  sidecar : ∀ c, IsComponent registry network c → topology.componentIsland network c = topology.islandOf network c
  nonempty : ∀ id island, topology.islands.get id = some island →
    island.components.Nodup ∧ island.components ≠ []
  netMap : ∀ id net, topology.nets.get id = some net → topology.netIsland id = some (topology.islandOfNet id)
  islands : ∀ u v, topology.InIsland network u → topology.InIsland network v →
    (topology.islandLabel network u = topology.islandLabel network v ↔
      ReflTransGen (AttachedTo registry network topology) u v)
  isolated : ∀ id net, topology.nets.get id = some net → (topology.islandOfNet id = none ↔
    ∀ c, ¬ ReflTransGen (AttachedTo registry network topology) (.net id) (.component c))

theorem incidence_eq_some {on : WireId → Bool} {c : DeviceComponent} {t : Nat} :
    network.incidence registry on c.device t = some c ↔
      ((network.attachedWire c.device t).any on && (network.definitionOf registry c.device).any fun definition =>
        decide (definition.terminalPartitions[t]? = some c.partition)) = true := by
  unfold Network.incidence
  cases network.attachedWire c.device t with
  | none => simp
  | some wire =>
    cases network.definitionOf registry c.device with
    | none => simp
    | some definition =>
      cases here : on wire with
      | false => simp [Option.filter, here]
      | true =>
        cases read : definition.terminalPartitions[t]? with
        | none => simp [Option.filter, here, read]
        | some partition =>
          simp only [Option.filter, here, if_true, Option.bind_some, read, Option.map_some, Option.any_some,
            Option.some.injEq, Bool.true_and, decide_eq_true_iff]
          constructor
          · intro same
            rw [← same]
          · intro same
            rw [same]

theorem count_terminals (h : NetsSound registry network self) {id : NetId} {net : Net}
    (held : self.nets.get id = some net) (c : DeviceComponent) :
    net.terminalComponents.count c = terminalsOn registry network net.wires c := by
  have ours := (h.terminals id net not_false held c.device).count_eq c
  rw [List.count_filter (by simp)] at ours
  rw [ours, Network.incidences, List.count, List.countP_filterMap, terminalsOn]
  apply List.countP_congr
  intro t _
  have same : (fun wire => decide (self.wireNet wire = some id)) = fun wire => decide (wire ∈ net.wires) := by
    funext wire
    apply decide_eq_decide.mpr
    constructor
    · intro on
      obtain ⟨net', held', member⟩ := h.named wire id on
      obtain rfl := Option.some.inj (held.symm.trans held')
      exact member
    · exact (h.wires id net not_false held).2 wire
  rw [same, isTerminalOn, ← incidence_eq_some]
  cases network.incidence registry _ c.device t <;> simp

theorem Maintained.attachedTo (h : Maintained registry network self) :
    AttachedTo registry network self = self.Attached := by
  funext u v
  have touches : ∀ id c, (∃ net, self.nets.get id = some net ∧ 0 < terminalsOn registry network net.wires c) ↔
      self.Touches id c := by
    intro id c
    constructor
    · intro there
      obtain ⟨net, held, some'⟩ := there
      rw [← count_terminals h.nets held] at some'
      exact ⟨net, held, List.count_pos_iff.mp some'⟩
    · intro there
      obtain ⟨net, held, member⟩ := there
      refine ⟨net, held, ?_⟩
      rw [← count_terminals h.nets held]
      exact List.count_pos_iff.mpr member
  cases u <;> cases v <;> first | rfl | exact propext (touches _ _)

theorem Maintained.isComponent (h : Maintained registry network self) {c : DeviceComponent} :
    IsComponent registry network c ↔ ∃ id, self.islandOf network c = some id := by
  constructor
  · intro component
    obtain ⟨definition, known, inRange⟩ := component
    exact h.islands.beside.islandOf_isSome known inRange
  · intro placed
    obtain ⟨id, on⟩ := placed
    obtain ⟨row, record⟩ := h.islands.beside.record_of_islandOf on
    obtain ⟨definition, -, known, -, -⟩ := Network.definition_of_record h.consistent.toStored record
    obtain ⟨islands, found, read⟩ := Option.bind_eq_some_iff.mp on
    exact ⟨definition, known, h.islands.beside.length_islandsOf found known ▸ (List.getElem?_eq_some_iff.mp read).1⟩

theorem Maintained.defined (h : Maintained registry network self) : Defined registry network self := by
  have onNet : ∀ wire id net, self.nets.get id = some net →
      (wire ∈ net.wires ↔ self.wireNet wire = some id) := by
    intro wire id net held
    constructor
    · exact (h.nets.wires id net not_false held).2 wire
    · intro on
      obtain ⟨net', held', member⟩ := h.nets.named wire id on
      obtain rfl := Option.some.inj (held.symm.trans held')
      exact member
  have onIsland : ∀ c id island, self.islands.get id = some island →
      (c ∈ island.components ↔ self.islandOf network c = some id) := by
    intro c id island held
    constructor
    · exact h.islands.members id island held c
    · intro on
      obtain ⟨island', held', member⟩ := h.islands.named c id on
      obtain rfl := Option.some.inj (held.symm.trans held')
      exact member
  refine ⟨fun wire => ⟨fun live => ?_, fun listed => ?_⟩, onNet,
    fun id net held => ⟨h.nets.nodup id net held, (h.nets.wires id net not_false held).1⟩,
    fun u v hu hv => h.nets.labels.same_iff hu hv, fun id net held => count_terminals h.nets held,
    fun c => ⟨fun component => ?_, fun listed => ?_⟩, onIsland, fun c component => ?_,
    fun id island held => ⟨h.islands.nodup id island held, h.islands.nonempty id island not_false held⟩,
    fun id net held => h.islands.netIsland_eq h.nets.sound held, fun u v hu hv => ?_, fun id net held => ?_⟩
  · obtain ⟨id, on⟩ := h.nets.isSome live
    obtain ⟨net, held, member⟩ := h.nets.named wire id on
    exact ⟨id, net, held, member⟩
  · obtain ⟨id, net, held, member⟩ := listed
    exact h.nets.live_of_wireNet ((onNet wire id net held).mp member)
  · obtain ⟨id, on⟩ := h.isComponent.mp component
    obtain ⟨island, held, member⟩ := h.islands.named c id on
    exact ⟨id, island, held, member⟩
  · obtain ⟨id, island, held, member⟩ := listed
    exact h.isComponent.mpr ⟨id, (onIsland c id island held).mp member⟩
  · obtain ⟨id, on⟩ := h.isComponent.mp component
    rw [h.islands.beside.componentIsland_eq on, on]
  · rw [h.attachedTo]
    exact (IslandsOk.labels h.islands).same_iff hu hv
  · rw [h.attachedTo]
    constructor
    · intro isolated c path
      have same := h.islands.coarse.reach path
      have reached : self.InIsland network (.component c) := by
        cases path.cases_head with
        | inl same => exact absurd same (by simp)
        | inr step =>
          obtain ⟨v, first, -⟩ := step
          have := h.islands.undirected.left first
          exact absurd isolated this
      exact reached (same.symm.trans isolated)
    · intro alone
      by_contra inside
      obtain ⟨island, on⟩ := Option.ne_none_iff_exists'.mp inside
      obtain ⟨c, touches⟩ := h.islands.anchored id island not_false on
      exact alone c (.single touches)

/-! ### Registering definitions -/

theorem Maintained.register (h : Maintained registry network self) (extends' : next.Extends registry) :
    Maintained next network self := by
  have definitions : ∀ device, network.definitionOf next device = network.definitionOf registry device := by
    intro device
    cases found : network.record device with
    | none => rw [Network.definitionOf, Network.definitionOf, found, Option.bind_none, Option.bind_none]
    | some row =>
      obtain ⟨definition, known, defined, -⟩ := Network.definition_of_record h.consistent.toStored found
      rw [defined, Network.definitionOf, found, Option.bind_some, extends' _ _ known]
  have incidences : ∀ on device, network.incidences next on device = network.incidences registry on device := by
    intro on device
    have each : network.incidence next on device = network.incidence registry on device := by
      funext t
      rw [Network.incidence, Network.incidence, definitions]
    rw [Network.incidences, Network.incidences, each]
  have consistent := h.consistent.register extends'
  refine ⟨consistent, ⟨h.nets.sound, h.nets.live, h.nets.named, h.nets.nodup, h.nets.mapped, h.nets.wires,
    fun id net fine held device => ?_, h.nets.coarse, h.nets.exact⟩, ?_, h.invalidation⟩
  · rw [incidences]
    exact h.nets.terminals id net fine held device
  · have aligned : Sidecar.Aligned (partitionCountOf next) self.deviceChunks network.deviceArena := by
      refine h.islands.beside.aligned.widths fun chunk member => ?_
      obtain ⟨definition, known, -⟩ := (h.consistent.arena.chunks chunk member).definition
      rw [partitionCountOf_known known, partitionCountOf_known (extends' _ _ known)]
    exact ⟨h.islands.sound, ⟨consistent.arena, aligned⟩, h.islands.map, h.islands.removed, h.islands.alive,
      h.islands.named, h.islands.nodup, h.islands.members, h.islands.nonempty, h.islands.anchored,
      h.islands.reached, h.islands.coarse, h.islands.exact⟩

theorem Maintained.empty (registry : DefinitionRegistry F) :
    Maintained registry ({} : Network F) ({} : DerivedTopology) := by
  have noNets : ∀ id, ({} : DerivedTopology).nets.get id = none := fun _ => rfl
  have noIslands : ∀ id, ({} : DerivedTopology).islands.get id = none := fun _ => rfl
  have noNet : ∀ wire, ({} : DerivedTopology).wireNet wire = none := by simp [wireNet]
  have noIsland : ∀ id, ({} : DerivedTopology).islandOfNet id = none := by simp [islandOfNet, netIsland]
  have unplaced : ∀ c, ({} : DerivedTopology).islandOf ({} : Network F) c = none := by
    simp [islandOf, islandsOf, Sidecar.rowOf, lookup, DeviceArena.locAt]
  have consistent := Network.Consistent.empty (F := F) registry
  have unlabelled : ∀ v, ({} : DerivedTopology).islandLabel ({} : Network F) v = none := by
    intro v
    cases v with
    | net id => exact noIsland id
    | component c => exact unplaced c
  refine ⟨consistent, ⟨DenseIdStore.sound_empty, fun wire => ?_, fun wire id on => ?_, fun id net held => ?_,
    fun id net held => ?_, fun id net _ held => ?_, fun id net _ held => ?_, fun u v _ => ?_,
    fun id _ u v hu _ _ => ?_⟩, ⟨DenseIdStore.sound_empty, ⟨consistent.arena, ⟨by simp, rfl⟩⟩, rfl,
    fun id _ => noIsland id, fun net id on => ?_, fun c id on => ?_, fun id island held => ?_,
    fun id island held => ?_, fun id island _ held => ?_, fun net id _ on => ?_, fun net c touches => ?_,
    fun u v _ => ?_, fun id _ u v hu _ _ => ?_⟩, ?_⟩
  · simp [noNet, Network.wireSlot]
  · simp [noNet] at on
  · simp [noNets] at held
  · simp [noNets] at held
  · simp [noNets] at held
  · simp [noNets] at held
  · rw [noNet, noNet]
  · simp [Network.LiveWire, Network.wireSlot] at hu
  · simp [noIsland] at on
  · simp [unplaced] at on
  · simp [noIslands] at held
  · simp [noIslands] at held
  · simp [noIslands] at held
  · simp [noIsland] at on
  · obtain ⟨net', held, -⟩ := touches
    simp [noNets] at held
  · rw [unlabelled, unlabelled]
  · exact absurd (unlabelled u) hu
  · exact ⟨by simp, by simp, by simp, by simp⟩

end DerivedTopology

namespace Stores

variable {registry : DefinitionRegistry F} {self : Stores F}

theorem Sound.empty (registry : DefinitionRegistry F) : Sound registry ({} : Stores F) :=
  ⟨.empty registry, TraversalScratch.sound_empty, ⟨by simp, rfl⟩⟩

theorem Sound.register {next : DefinitionRegistry F} (h : Sound registry self) (extends' : next.Extends registry) :
    Sound next self := by
  refine ⟨h.maintained.register extends', h.scratch, Sidecar.Aligned.widths h.states fun chunk member => ?_⟩
  obtain ⟨definition, known, -⟩ := (h.consistent.arena.chunks chunk member).definition
  rw [PhysicalStateStore.stateCountOf_known known, PhysicalStateStore.stateCountOf_known (extends' _ _ known)]

variable [F64 F]

/-- A command panics just where it is excused. -/
theorem applyCommand_meets (partitioned : registry.Partitioned) (h : Sound registry self)
    (command : WorldCommand F) : Outcome.Meets (applyCommand registry command self) (Excused registry self command)
      (fun _ after => ¬ Excused registry self command ∧ Followed registry self after)
      fun error after => ¬ Excused registry self command ∧ Unchanged error self after ∧ Sound registry after := by
  have kept : Keeps registry self command → _ := fun keeps => keeps.mono id (fun _ _ post => post)
    fun error after (post : _ ∧ after = self) =>
      (⟨post.1, Or.inl post.2, post.2 ▸ h⟩ : _ ∧ Unchanged error self after ∧ Sound registry after)
  cases command with
  | addWire wire => exact kept (addWire_keeps h wire)
  | removeWire wire => exact kept (removeWire_keeps partitioned h wire)
  | connectWires wireA wireB => exact kept (connectWires_keeps partitioned h wireA wireB)
  | disconnectWires wireA wireB => exact kept (disconnectWires_keeps partitioned h wireA wireB)
  | addDevice device definition => exact addDevice_keeps partitioned h device definition
  | removeDevice device => exact kept (removeDevice_keeps partitioned h device)
  | attachTerminal wire device terminal => exact kept (attachTerminal_keeps partitioned h wire device terminal)
  | detachTerminal wire device terminal => exact kept (detachTerminal_keeps partitioned h wire device terminal)
  | setDeviceParameter device parameter value =>
    exact kept (setDeviceParameter_keeps partitioned h device parameter value)

theorem applyCommand_panic_iff (partitioned : registry.Partitioned) (h : Sound registry self)
    (command : WorldCommand F) :
    applyCommand registry command self = .panic ↔ Excused registry self command := by
  have meets := applyCommand_meets partitioned h command
  cases run : applyCommand registry command self with
  | ok value after =>
    rw [run] at meets
    exact ⟨fun wrong => absurd wrong nofun, fun few => absurd few meets.1⟩
  | err error after =>
    rw [run] at meets
    exact ⟨fun wrong => absurd wrong nofun, fun few => absurd few meets.1⟩
  | panic =>
    rw [run] at meets
    exact ⟨fun _ => meets, fun _ => rfl⟩

/-- A definition is registered, or a command is applied. -/
inductive Step : DefinitionRegistry F × Stores F → DefinitionRegistry F × Stores F → Prop
  | register {registry next : DefinitionRegistry F} {stores : Stores F} (extends' : next.Extends registry)
      (reached : next.Reached) : Step (registry, stores) (next, stores)
  | command {registry : DefinitionRegistry F} {stores after : Stores F} (command : WorldCommand F)
      (leaves : (applyCommand registry command stores).Leaves after) : Step (registry, stores) (registry, after)

theorem run_sound {start : DefinitionRegistry F} (reached : start.Reached)
    (run : ReflTransGen Step (start, ({} : Stores F)) (registry, self)) :
    registry.Reached ∧ Sound registry self := by
  suffices ∀ state, ReflTransGen Step (start, ({} : Stores F)) state →
      state.1.Reached ∧ Sound state.1 state.2 from this _ run
  intro state run
  induction run with
  | refl => exact ⟨reached, .empty start⟩
  | tail _ step ih =>
    obtain ⟨before, sound⟩ := ih
    cases step with
    | register extends' next => exact ⟨next, sound.register extends'⟩
    | command command leaves =>
      exact ⟨before, (applyCommand_meets before.partitioned sound command).leaves leaves
        (fun _ _ post => post.2.sound) fun _ _ post => post.2.2⟩

/-- In every state commands lead to, the maintained topology is the one the network defines, and
the next command returns. -/
theorem commands_maintain_topology {start : DefinitionRegistry F} (reached : start.Reached)
    (run : ReflTransGen Step (start, ({} : Stores F)) (registry, self)) :
    DerivedTopology.Defined registry self.network self.derivedTopology ∧
      ∀ command, ¬ Excused registry self command → ∃ after, (applyCommand registry command self).Leaves after := by
  obtain ⟨known, sound⟩ := run_sound reached run
  refine ⟨sound.maintained.defined, fun command fine => ?_⟩
  cases outcome : applyCommand registry command self with
  | ok value after => exact ⟨after, Or.inl ⟨value, rfl⟩⟩
  | err error after => exact ⟨after, Or.inr ⟨error, rfl⟩⟩
  | panic => exact absurd ((applyCommand_panic_iff known.partitioned sound command).mp outcome) fine

/-- A resistor on a wire: the wire's net lists its component once. -/
theorem commands_maintain_topology_resistor : ∃ stores : Stores Float,
    DerivedTopology.Defined .new stores.network stores.derivedTopology ∧
      ∃ net, stores.derivedTopology.nets.get (.ofIndex 0 (by decide)) = some net ∧
        net.terminalComponents.length = 1 := by
  have run : ReflTransGen Step ((DefinitionRegistry.new : DefinitionRegistry Float), {}) _ :=
    .tail (.tail (.single (.command (.addWire (.ofIndex 0 (by decide))) (Or.inl ⟨(), rfl⟩)))
      (.command (.addDevice (.ofIndex 0 (by decide)) PrimitiveElementKind.resistance.definitionId)
        (Or.inl ⟨(), rfl⟩)))
      (.command (.attachTerminal (.ofIndex 0 (by decide)) (.ofIndex 0 (by decide)) ⟨0, by decide⟩)
        (Or.inl ⟨(), rfl⟩))
  exact ⟨_, (commands_maintain_topology .new run).1, _, rfl, rfl⟩

end Stores

end Hynergy
