import Hynergy.Lib.Labelling
import Hynergy.Topology.Maps
import Hynergy.Topology.Wiring
import Mathlib.Data.List.ReduceOption

/-!
# What the derived topology says

Nets label the connected wires; islands label the nets and device components joined by
attachments. Both halves of the invariant allow for the nets or islands still to be repaired.
-/

namespace Hynergy

open Lib Relation

variable {F : Type}

namespace Network

variable {registry : DefinitionRegistry F} {self : Network F}

def LiveWire (self : Network F) (wire : WireId) : Prop := (self.wireSlot wire).isSome = true

def WireEdge (self : Network F) (u v : WireId) : Prop := self.Lists (.wire u) (.wire v)

theorem Consistent.undirected (h : Consistent registry self) : Undirected self.LiveWire self.WireEdge := by
  refine ⟨fun edge => h.edges.symm _ _ edge, fun edge => ?_⟩
  obtain ⟨slot, live, -⟩ := edge
  exact Option.isSome_iff_exists.mpr ⟨slot, live⟩

theorem attachedWire_live (h : Consistent registry self) {device : DeviceId} {t : Nat} {wire : WireId}
    (attached : self.attachedWire device t = some wire) : self.LiveWire wire := by
  obtain ⟨row, found, read⟩ := attachedWire_eq_some.mp attached
  obtain ⟨-, fits⟩ := h.toWires device row t _ found read
  have listed : self.Lists (.terminal device ⟨t, fits.trans (by decide)⟩ fits) (.wire wire) :=
    ⟨row, found, read⟩
  obtain ⟨slot, live, -⟩ := h.edges.symm _ _ listed
  exact Option.isSome_iff_exists.mpr ⟨slot, live⟩

end Network

namespace DerivedTopology

variable {registry : DefinitionRegistry F} {network : Network F} {self next : DerivedTopology}

/-! ### Nets -/

/-- The nets name the connected classes of the live wires and list what is attached to them;
of a net that is `bad` only its wires are known to be among those it lists. -/
structure NetsOk (bad : NetId → Prop) (registry : DefinitionRegistry F) (network : Network F)
    (topology : DerivedTopology) : Prop where
  sound : topology.nets.Sound
  live : ∀ wire, (topology.wireNet wire).isSome = (network.wireSlot wire).isSome
  named : ∀ wire id, topology.wireNet wire = some id →
    ∃ net, topology.nets.get id = some net ∧ wire ∈ net.wires
  nodup : ∀ id net, topology.nets.get id = some net → net.wires.Nodup
  mapped : ∀ id net, topology.nets.get id = some net →
    ∀ wire ∈ net.wires, wire.index < topology.wireNetMap.length
  wires : ∀ id net, ¬ bad id → topology.nets.get id = some net →
    net.wires ≠ [] ∧ ∀ wire ∈ net.wires, topology.wireNet wire = some id
  terminals : ∀ id net, ¬ bad id → topology.nets.get id = some net → ∀ device,
    (net.terminalComponents.filter fun c => c.device = device).Perm
      (network.incidences registry (fun wire => topology.wireNet wire = some id) device)
  coarse : Coarse network.WireEdge topology.wireNet
  exact : ∀ id, ¬ bad id → Exact network.LiveWire network.WireEdge topology.wireNet (some id)

/-- Every net is in order. -/
abbrev NetsSound (registry : DefinitionRegistry F) (network : Network F) (topology : DerivedTopology) :
    Prop := NetsOk (fun _ => False) registry network topology

namespace NetsOk

variable {bad : NetId → Prop}

theorem isSome (h : NetsOk bad registry network self) {wire : WireId} (live : network.LiveWire wire) :
    ∃ id, self.wireNet wire = some id :=
  Option.isSome_iff_exists.mp ((h.live wire).trans live)

theorem live_of_wireNet (h : NetsOk bad registry network self) {wire : WireId} {id : NetId}
    (found : self.wireNet wire = some id) : network.LiveWire wire := by
  rw [Network.LiveWire, ← h.live, found]
  rfl

theorem mono {bad' : NetId → Prop} (h : NetsOk bad registry network self)
    (more : ∀ id, bad id → bad' id) : NetsOk bad' registry network self :=
  ⟨h.sound, h.live, h.named, h.nodup, h.mapped, fun id net fine => h.wires id net fun b => fine (more id b),
    fun id net fine => h.terminals id net fun b => fine (more id b), h.coarse,
    fun id fine => h.exact id fun b => fine (more id b)⟩

/-- The labels of the live wires. -/
theorem labels (h : NetsSound registry network self) :
    Labels network.LiveWire network.WireEdge self.wireNet := by
  refine ⟨h.coarse, fun i u v hu hv hui hvi => ?_⟩
  obtain ⟨id, found⟩ := h.isSome hu
  obtain rfl := found.symm.trans hui
  exact h.exact id not_false u v hu hv hui hvi

end NetsOk

/-! ### Attachments -/

/-- A terminal of the component is attached to a wire of the net. -/
def Touches (topology : DerivedTopology) (id : NetId) (c : DeviceComponent) : Prop :=
  ∃ net, topology.nets.get id = some net ∧ c ∈ net.terminalComponents

/-- The attachments, as edges between nets and components. -/
def Attached (topology : DerivedTopology) : IslandVertex → IslandVertex → Prop
  | .net id, .component c => topology.Touches id c
  | .component c, .net id => topology.Touches id c
  | _, _ => False

theorem Attached.symm {u v : IslandVertex} (h : self.Attached u v) : self.Attached v u := by
  cases u <;> cases v <;> exact h

/-- One of the component's own terminals is attached to a wire that is mapped to the net. -/
def LeadsTo (registry : DefinitionRegistry F) (network : Network F) (topology : DerivedTopology)
    (c : DeviceComponent) (id : NetId) : Prop :=
  ∃ t wire definition, network.attachedWire c.device t = some wire ∧ topology.wireNet wire = some id ∧
    network.definitionOf registry c.device = some definition ∧
    definition.terminalPartitions[t]? = some c.partition

/-- A net touches the components of the terminals on its wires. -/
theorem touches_iff {bad : NetId → Prop} (h : NetsOk bad registry network self) {id : NetId}
    {net : Net} (fine : ¬ bad id) (found : self.nets.get id = some net) (c : DeviceComponent) :
    self.Touches id c ↔ LeadsTo registry network self c id := by
  have listed : c ∈ net.terminalComponents ↔
      c ∈ network.incidences registry (fun wire => self.wireNet wire = some id) c.device := by
    rw [← (h.terminals id net fine found c.device).mem_iff, List.mem_filter]
    simp
  constructor
  · intro touches
    obtain ⟨net', found', member⟩ := touches
    obtain rfl := Option.some.inj (found.symm.trans found')
    obtain ⟨-, t, wire, definition, attached, on, rest⟩ := Network.mem_incidences.mp (listed.mp member)
    exact ⟨t, wire, definition, attached, of_decide_eq_true on, rest⟩
  · intro there
    obtain ⟨t, wire, definition, attached, on, rest⟩ := there
    exact ⟨net, found, listed.mpr
      (Network.mem_incidences.mpr ⟨rfl, t, wire, definition, attached, decide_eq_true on, rest⟩)⟩

/-! ### Coupled components -/

theorem Touches.onWire (consistent : network.Consistent registry) (h : NetsSound registry network self) {m : NetId}
    {c : DeviceComponent} (touches : self.Touches m c) :
    ∃ wire, (network.wiring registry).On c wire ∧ self.wireNet wire = some m := by
  obtain ⟨net, held, member⟩ := touches
  obtain ⟨t, wire, definition, attached, on, known, read⟩ := (touches_iff h not_false held c).mp ⟨net, held, member⟩
  exact ⟨wire, (Network.wiring_on consistent).mpr ⟨t, definition, attached, known, read⟩, on⟩

theorem touches_of_onWire (consistent : network.Consistent registry) (h : NetsSound registry network self)
    {c : DeviceComponent} {wire : WireId} (onWire : (network.wiring registry).On c wire) :
    ∃ m, self.wireNet wire = some m ∧ self.Touches m c := by
  obtain ⟨t, definition, attached, known, read⟩ := (Network.wiring_on consistent).mp onWire
  obtain ⟨m, on⟩ := h.isSome (Network.attachedWire_live consistent attached)
  obtain ⟨net, held, -⟩ := h.named wire m on
  exact ⟨m, on, (touches_iff h not_false held c).mpr ⟨t, wire, definition, attached, on, known, read⟩⟩

/-- Components are connected through nets just if they are connected through wires. -/
theorem reach_iff_coupled (consistent : network.Consistent registry) (h : NetsSound registry network self)
    {c d : DeviceComponent} : ReflTransGen self.Attached (.component c) (.component d) ↔
      ReflTransGen (network.wiring registry).Coupled c d := by
  constructor
  · -- a path from a net leads on from every component the net touches
    intro path
    suffices ∀ x, ReflTransGen self.Attached x (.component d) →
        (∀ c, x = .component c → ReflTransGen (network.wiring registry).Coupled c d) ∧
        ∀ m, x = .net m → ∀ c, self.Touches m c → ReflTransGen (network.wiring registry).Coupled c d from
      (this _ path).1 c rfl
    intro x path
    induction path using ReflTransGen.head_induction_on with
    | refl =>
      refine ⟨fun c same => ?_, fun m same => (by cases same)⟩
      cases same
      exact .refl
    | @head x y step _ ih =>
      cases x with
      | component c =>
        cases y with
        | component other => exact step.elim
        | net m =>
          refine ⟨fun c same => ?_, fun m same => (by cases same)⟩
          cases same
          exact ih.2 m rfl _ step
      | net m =>
        cases y with
        | net other => exact step.elim
        | component e =>
          refine ⟨fun c same => (by cases same), fun m same c touches => ?_⟩
          cases same
          obtain ⟨u, onU, netU⟩ := touches.onWire consistent h
          obtain ⟨v, onV, netV⟩ := Touches.onWire consistent h step
          have joined : ReflTransGen network.WireEdge u v :=
            h.exact m not_false u v (h.live_of_wireNet netU) (h.live_of_wireNet netV) netU netV
          exact .head ⟨u, v, onU, onV, joined⟩ (ih.1 e rfl)
  · intro path
    induction path with
    | refl => exact .refl
    | tail _ step ih =>
      obtain ⟨u, v, onU, onV, joined⟩ := step
      obtain ⟨m, netU, touchesU⟩ := touches_of_onWire consistent h onU
      obtain ⟨k, netV, touchesV⟩ := touches_of_onWire consistent h onV
      obtain rfl : m = k := Option.some.inj (netU.symm.trans ((h.coarse.reach joined).trans netV))
      have first : self.Attached (.component _) (.net m) := touchesU
      have second : self.Attached (.net m) (.component _) := touchesV
      exact (ih.tail first).tail second

/-! ### Islands -/

/-- The island of a net or a component. -/
def islandLabel (topology : DerivedTopology) (network : Network F) : IslandVertex → Option IslandId
  | .net id => topology.islandOfNet id
  | .component c => topology.islandOf network c

/-- The vertices that are in an island. -/
def InIsland (topology : DerivedTopology) (network : Network F) (v : IslandVertex) : Prop :=
  topology.islandLabel network v ≠ none

/-- The islands name the classes of nets and components joined by `R`; a net nothing is attached
to is in none. A `bad` island may be empty or fall into pieces, and nets of it may have lost
their terminals. -/
structure IslandsLabelled (R : IslandVertex → IslandVertex → Prop) (bad : IslandId → Prop)
    (registry : DefinitionRegistry F) (network : Network F) (topology : DerivedTopology) : Prop where
  sound : topology.islands.Sound
  beside : Beside registry network topology
  map : topology.netIslandMap.length = topology.nets.slotCount
  removed : ∀ id, topology.nets.get id = none → topology.islandOfNet id = none
  alive : ∀ net id, topology.islandOfNet net = some id → ∃ island, topology.islands.get id = some island
  named : ∀ c id, topology.islandOf network c = some id →
    ∃ island, topology.islands.get id = some island ∧ c ∈ island.components
  nodup : ∀ id island, topology.islands.get id = some island → island.components.Nodup
  members : ∀ id island, topology.islands.get id = some island →
    ∀ c ∈ island.components, topology.islandOf network c = some id
  nonempty : ∀ id island, ¬ bad id → topology.islands.get id = some island → island.components ≠ []
  anchored : ∀ net id, ¬ bad id → topology.islandOfNet net = some id → ∃ c, topology.Touches net c
  reached : ∀ net c, topology.Touches net c → ∃ id, topology.islandOfNet net = some id
  coarse : Coarse R (topology.islandLabel network)
  exact : ∀ id, ¬ bad id →
    Exact (topology.InIsland network) R (topology.islandLabel network) (some id)

/-- The islands name the classes of nets and components joined by attachments. -/
abbrev IslandsOk (bad : IslandId → Prop) (registry : DefinitionRegistry F) (network : Network F)
    (topology : DerivedTopology) : Prop :=
  IslandsLabelled topology.Attached bad registry network topology

abbrev IslandsSound (registry : DefinitionRegistry F) (network : Network F)
    (topology : DerivedTopology) : Prop := IslandsOk (fun _ => False) registry network topology

namespace IslandsOk

variable {bad : IslandId → Prop}

theorem mono {bad' : IslandId → Prop} (h : IslandsOk bad registry network self)
    (more : ∀ id, bad id → bad' id) : IslandsOk bad' registry network self :=
  ⟨h.sound, h.beside, h.map, h.removed, h.alive, h.named, h.nodup, h.members,
    fun id island fine => h.nonempty id island fun b => fine (more id b),
    fun net id fine => h.anchored net id fun b => fine (more id b), h.reached, h.coarse,
    fun id fine => h.exact id fun b => fine (more id b)⟩

theorem undirected (h : IslandsOk bad registry network self) :
    Undirected (self.InIsland network) self.Attached := by
  refine ⟨fun edge => edge.symm, fun {u v} edge => ?_⟩
  have same := h.coarse u v edge
  cases u with
  | net id =>
    cases v with
    | net other => exact edge.elim
    | component c =>
      obtain ⟨island, found⟩ := h.reached id c edge
      exact Option.ne_none_iff_exists'.mpr ⟨island, found⟩
  | component c =>
    cases v with
    | component other => exact edge.elim
    | net id =>
      obtain ⟨island, found⟩ := h.reached id c edge
      exact Option.ne_none_iff_exists'.mpr ⟨island, same.trans found⟩

theorem labels {R : IslandVertex → IslandVertex → Prop}
    (h : IslandsLabelled R (fun _ => False) registry network self) :
    Labels (self.InIsland network) R (self.islandLabel network) := by
  refine ⟨h.coarse, fun i u v hu hv hui hvi => ?_⟩
  obtain ⟨id, found⟩ := Option.ne_none_iff_exists'.mp hu
  obtain rfl := found.symm.trans hui
  exact h.exact id not_false u v hu hv hui hvi

/-- A net of an island is live. -/
theorem live_of_islandOfNet (h : IslandsOk bad registry network self) {net : NetId} {id : IslandId}
    (found : self.islandOfNet net = some id) : ∃ value, self.nets.get net = some value := by
  cases held : self.nets.get net with
  | none => simp [h.removed net held] at found
  | some value => exact ⟨value, rfl⟩

theorem netIsland_eq (h : IslandsOk bad registry network self) {net : NetId} {value : Net}
    (sound : self.nets.Sound) (found : self.nets.get net = some value) :
    self.netIsland net = some (self.islandOfNet net) :=
  netIsland_of_lt (h.map ▸ sound.index_lt found)

end IslandsOk

/-! ### Neighbours -/

variable [F64 F]

/-- The neighbours of a component are the nets of its attached terminals. -/
theorem vertexNeighbors_component {bad : NetId → Prop} (consistent : network.Consistent registry)
    (partitioned : registry.Partitioned) (h : NetsOk bad registry network self)
    (fine : ∀ id, ¬ bad id) {c : DeviceComponent}
    {row : DeviceRow F} (found : network.record c.device = some row) :
    ∃ ns, vertexNeighbors self registry network (.component c) = some ns ∧
      ∀ v, v ∈ ns ↔ ∃ id, v = .net id ∧ self.Touches id c := by
  obtain ⟨definition, known, defined, length, -⟩ := Network.definition_of_record consistent.toStored found
  have count := (partitioned _ _ known).length
  -- what one terminal leads to
  let lead : Option ConnectionRef × Nat → Option IslandVertex := fun terminal =>
    if definition.terminalPartitions[terminal.2]? = some c.partition then
      (terminal.1.bind ConnectionRef.asWire).bind fun wire => (self.wireNet wire).map .net
    else none
  have step : ∀ terminal ∈ row.terminals.zipIdx,
      terminalVertex self registry network c definition.terminalPartitions terminal =
        some (lead terminal) := by
    intro terminal member
    obtain ⟨connection, t⟩ := terminal
    have read := List.mem_zipIdx_iff_getElem?.mp member
    have inside : t < definition.terminalPartitions.length := by
      rw [count, ← length]
      exact (List.getElem?_eq_some_iff.mp read).1
    unfold terminalVertex
    dsimp only
    rw [bind_of_eq_some (List.getElem?_eq_getElem inside)]
    dsimp only [lead]
    rw [List.getElem?_eq_getElem inside]
    by_cases here : definition.terminalPartitions[t] = c.partition
    · rw [if_neg (not_not_intro here), if_pos (by rw [here])]
      cases connection with
      | none => rfl
      | some connection =>
        obtain ⟨⟨wire, rfl⟩, -⟩ := consistent.toWires c.device row t connection found read
        have attached : network.attachedWire c.device t = some wire :=
          Network.attachedWire_eq_some.mpr ⟨row, found, read⟩
        obtain ⟨id, at'⟩ := h.isSome (Network.attachedWire_live consistent attached)
        simp [at', ConnectionRef.asWire]
    · rw [if_pos here, if_neg fun same => here (Option.some.inj same)]
  refine ⟨(row.terminals.zipIdx.map lead).reduceOption, ?_, fun v => ?_⟩
  · unfold vertexNeighbors
    dsimp only
    rw [Network.deviceOf_eq consistent.toStored, found, Option.map_some, bind_of_eq_some rfl]
    dsimp only [Network.viewOf]
    rw [bind_of_eq_some known, bind_of_eq_some (mapM_eq_some step)]
  · rw [List.reduceOption_mem_iff, List.mem_map]
    constructor
    · intro there
      obtain ⟨⟨connection, t⟩, member, led⟩ := there
      have read := List.mem_zipIdx_iff_getElem?.mp member
      dsimp only [lead] at led
      split at led
      · rename_i here
        obtain ⟨wire, at', led⟩ := Option.bind_eq_some_iff.mp led
        obtain ⟨connection, rfl, at'⟩ := Option.bind_eq_some_iff.mp at'
        obtain rfl := ConnectionRef.asWire_eq_some.mp at'
        obtain ⟨id, on, rfl⟩ := Option.map_eq_some_iff.mp led
        obtain ⟨net, held, -⟩ := h.named wire id on
        exact ⟨id, rfl, (touches_iff h (fine id) held c).mpr ⟨t, wire, definition,
          Network.attachedWire_eq_some.mpr ⟨row, found, read⟩, on, defined, here⟩⟩
      · simp at led
    · intro there
      obtain ⟨id, rfl, net, held, member⟩ := there
      obtain ⟨t, wire, definition', attached, on, defined', here⟩ :=
        (touches_iff h (fine id) held c).mp ⟨net, held, member⟩
      obtain rfl := Option.some.inj (defined.symm.trans defined')
      obtain ⟨row', found', read⟩ := Network.attachedWire_eq_some.mp attached
      obtain rfl := Option.some.inj (found.symm.trans found')
      refine ⟨(some (.wire wire), t), List.mem_zipIdx_iff_getElem?.mpr read, ?_⟩
      dsimp only [lead]
      rw [if_pos here, Option.bind_some, ConnectionRef.asWire, Option.bind_some, on, Option.map_some]

/-- The neighbours of a net are the components of its terminals. -/
theorem vertexNeighbors_net {id : NetId} {net : Net} (found : self.nets.get id = some net) :
    ∃ ns, vertexNeighbors self registry network (.net id) = some ns ∧
      ∀ v, v ∈ ns ↔ ∃ c, v = .component c ∧ self.Touches id c := by
  refine ⟨net.terminalComponents.map .component, ?_, fun v => ?_⟩
  · unfold vertexNeighbors
    dsimp only
    rw [bind_of_eq_some found]
  · rw [List.mem_map]
    constructor
    · intro there
      obtain ⟨c, member, rfl⟩ := there
      exact ⟨c, rfl, net, found, member⟩
    · intro there
      obtain ⟨c, rfl, net', found', member⟩ := there
      obtain rfl := Option.some.inj (found.symm.trans found')
      exact ⟨c, member, rfl⟩

end DerivedTopology

end Hynergy
