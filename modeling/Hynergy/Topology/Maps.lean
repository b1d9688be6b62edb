import Hynergy.Topology.Incidence
import Hynergy.Topology.Operations

/-!
# The maps of the derived topology

What one edit of a map does to every lookup, and what a loop of edits does.
-/

namespace Hynergy

open Lib

variable {F : Type}

namespace DerivedTopology

variable {registry : DefinitionRegistry F} {network : Network F} {self next : DerivedTopology}

/-- An entry is appended to a map. -/
theorem join_getElem?_concat {α : Type} (map : List (Option α)) (x : Option α) (i : Nat) :
    (map ++ [x])[i]?.join = if i = map.length then x else map[i]?.join := by
  by_cases last : i = map.length
  · rw [if_pos last, last, List.getElem?_concat_length]
    rfl
  · rw [if_neg last, List.getElem?_append]
    split
    · rfl
    · rw [List.getElem?_eq_none (show ([x] : List (Option α)).length ≤ i - map.length by
        rw [List.length_singleton]; omega), List.getElem?_eq_none (by omega)]

/-! ### Wires to nets -/

theorem lt_of_wireNet {wire : WireId} {net : NetId} (h : self.wireNet wire = some net) :
    wire.index < self.wireNetMap.length :=
  (List.getElem?_eq_some_iff.mp (Option.join_eq_some_iff.mp h)).1

theorem setWireNet_spec {wire : WireId} (inside : wire.index < self.wireNetMap.length)
    (net : Option NetId) :
    ∃ map, self.setWireNet wire net = some { self with wireNetMap := map } ∧
      map.length = self.wireNetMap.length ∧
      ∀ other : WireId, map[other.index]?.join = if other = wire then net else self.wireNet other := by
  refine ⟨self.wireNetMap.set wire.index net, ?_, List.length_set .., ?_⟩
  · rw [setWireNet, assign_of_lt inside, bind_of_eq_some rfl]
  · intro other
    by_cases same : other = wire
    · subst same
      rw [List.getElem?_set_self inside, if_pos rfl]
      rfl
    · rw [List.getElem?_set_ne fun e => same (NonZeroId.index_inj.mp e).symm, if_neg same]
      rfl

theorem setWireNets_spec (wires : List WireId) (net : Option NetId) {self : DerivedTopology}
    (inside : ∀ wire ∈ wires, wire.index < self.wireNetMap.length) :
    ∃ map, wires.foldlM (fun self wire => self.setWireNet wire net) self =
        some { self with wireNetMap := map } ∧ map.length = self.wireNetMap.length ∧
      ∀ other : WireId, map[other.index]?.join =
        if other ∈ wires then net else self.wireNet other := by
  induction wires generalizing self with
  | nil => exact ⟨self.wireNetMap, rfl, rfl, fun other => by rw [if_neg List.not_mem_nil]; rfl⟩
  | cons wire wires ih =>
    obtain ⟨map, run, length, found⟩ := setWireNet_spec (inside wire List.mem_cons_self) net
    obtain ⟨map', run', length', found'⟩ := @ih { self with wireNetMap := map }
      fun w member => by
        rw [length]
        exact inside w (List.mem_cons_of_mem _ member)
    refine ⟨map', ?_, length'.trans length, ?_⟩
    · rw [List.foldlM_cons, bind_of_eq_some run]
      exact run'
    · intro other
      rw [found', wireNet, found]
      by_cases here : other = wire
      · simp [here]
      · simp [here]

/-! ### Nets to islands -/

/-- The island of a net, if a component reaches it. -/
def islandOfNet (self : DerivedTopology) (net : NetId) : Option IslandId := (self.netIsland net).join

theorem setNetIsland_spec {net : NetId} (inside : net.index < self.netIslandMap.length)
    (island : Option IslandId) :
    ∃ map, self.setNetIsland net island = some { self with netIslandMap := map } ∧
      map.length = self.netIslandMap.length ∧
      ∀ other : NetId, map[other.index]?.join =
        if other = net then island else self.islandOfNet other := by
  refine ⟨self.netIslandMap.set net.index island, ?_, List.length_set .., ?_⟩
  · rw [setNetIsland, assign_of_lt inside, bind_of_eq_some rfl]
  · intro other
    by_cases same : other = net
    · subst same
      rw [List.getElem?_set_self inside, if_pos rfl]
      rfl
    · rw [List.getElem?_set_ne fun e => same (NonZeroId.index_inj.mp e).symm, if_neg same]
      rfl

theorem setNetIslands_spec (nets : List NetId) (island : Option IslandId) {self : DerivedTopology}
    (inside : ∀ net ∈ nets, net.index < self.netIslandMap.length) :
    ∃ map, nets.foldlM (fun self net => self.setNetIsland net island) self =
        some { self with netIslandMap := map } ∧ map.length = self.netIslandMap.length ∧
      ∀ other : NetId, map[other.index]?.join =
        if other ∈ nets then island else self.islandOfNet other := by
  induction nets generalizing self with
  | nil => exact ⟨self.netIslandMap, rfl, rfl, fun other => by rw [if_neg List.not_mem_nil]; rfl⟩
  | cons net nets ih =>
    obtain ⟨map, run, length, found⟩ := setNetIsland_spec (inside net List.mem_cons_self) island
    obtain ⟨map', run', length', found'⟩ := @ih { self with netIslandMap := map }
      fun n member => by
        rw [length]
        exact inside n (List.mem_cons_of_mem _ member)
    refine ⟨map', ?_, length'.trans length, ?_⟩
    · rw [List.foldlM_cons, bind_of_eq_some run]
      exact run'
    · intro other
      rw [found', islandOfNet, netIsland, found]
      by_cases here : other = net
      · simp [here]
      · simp [here]

theorem netIsland_of_lt {net : NetId} (inside : net.index < self.netIslandMap.length) :
    self.netIsland net = some (self.islandOfNet net) := by
  rw [islandOfNet, netIsland, List.getElem?_eq_getElem inside]
  rfl

theorem lt_of_islandOfNet {net : NetId} {island : IslandId} (h : self.islandOfNet net = some island) :
    net.index < self.netIslandMap.length :=
  (List.getElem?_eq_some_iff.mp (Option.join_eq_some_iff.mp h)).1

/-! ### Components to islands -/

/-- How many partitions a device of a definition has. -/
def partitionCountOf (registry : DefinitionRegistry F) (definition : DefinitionId) : Nat :=
  ((registry.get definition).map DeviceDefinition.partitionCount).getD 0

theorem partitionCountOf_known {id : DefinitionId} {definition : DeviceDefinition F}
    (known : registry.get id = some definition) :
    partitionCountOf registry id = definition.partitionCount := by
  rw [partitionCountOf, known, Option.map_some, Option.getD_some]

/-- The sidecar lies beside the model's chunks, with an island for each partition. -/
structure Beside (registry : DefinitionRegistry F) (network : Network F) (topology : DerivedTopology) :
    Prop where
  arena : network.deviceArena.Consistent registry
  aligned : Sidecar.Aligned (partitionCountOf registry) topology.deviceChunks network.deviceArena

def islandsOf (self : DerivedTopology) (network : Network F) (device : DeviceId) :
    Option (List IslandId) := Sidecar.rowOf self.deviceChunks network.deviceArena device

/-- The island of a live component. -/
def islandOf (self : DerivedTopology) (network : Network F) (component : DeviceComponent) :
    Option IslandId := (self.islandsOf network component.device).bind (·[component.partition.index]?)

namespace Beside

/-- Where a resident device's islands lie. -/
theorem site (h : Beside registry network self) {device : DeviceId} {islands : List IslandId}
    (found : self.islandsOf network device = some islands) :
    ∃ loc chunk, network.deviceArena.locAt device.index = some loc ∧
      self.deviceChunks[loc.1]? = some chunk ∧ chunk.Shaped ∧ chunk.rows[loc.2]? = some islands ∧
      loc.2 < chunk.rowCount ∧ islands.length = chunk.partitionCount := by
  obtain ⟨loc, located, -⟩ := Option.bind_eq_some_iff.mp found
  obtain ⟨chunk, row, hc, shaped, read, found', inside⟩ := h.aligned.find h.arena located
  obtain rfl := Option.some.inj (found.symm.trans found')
  exact ⟨loc, chunk, located, hc, shaped, read, inside, DeviceTopologyChunk.width shaped read⟩

/-- The device of a live component is resident. -/
theorem record_of_islandOf (h : Beside registry network self) {c : DeviceComponent} {island : IslandId}
    (found : self.islandOf network c = some island) : ∃ row, network.record c.device = some row := by
  obtain ⟨islands, row, -⟩ := Option.bind_eq_some_iff.mp found
  have here := h.aligned.rowOf_isSome h.arena c.device
  rw [show Sidecar.rowOf self.deviceChunks network.deviceArena c.device = some islands from row] at here
  exact Option.isSome_iff_exists.mp here.symm

/-- A device has an island for each of its partitions. -/
theorem length_islandsOf (h : Beside registry network self) {device : DeviceId} {islands : List IslandId}
    {definition : DeviceDefinition F} (found : self.islandsOf network device = some islands)
    (known : network.definitionOf registry device = some definition) :
    islands.length = definition.partitionCount := by
  obtain ⟨row, record, known⟩ := Option.bind_eq_some_iff.mp known
  obtain ⟨loc, located, there, -⟩ := h.arena.record_eq_some.mp record
  obtain ⟨chunk, id, hc, hd, rfl⟩ := DeviceArena.rowAt_table.mp there
  obtain ⟨side, hs, shaped, stride, -⟩ := h.aligned.beside hc
  obtain ⟨loc', side', located', hs', -, read, -, width⟩ := h.site found
  obtain rfl := Option.some.inj (located.symm.trans located')
  obtain rfl := Option.some.inj (hs.symm.trans hs')
  exact width.trans (stride.trans (partitionCountOf_known known))

/-- The islands of a resident device. -/
theorem islandsOf_isSome (h : Beside registry network self) {device : DeviceId} {row : DeviceRow F}
    (found : network.record device = some row) : ∃ islands, self.islandsOf network device = some islands := by
  have resident := h.aligned.rowOf_isSome h.arena device
  rw [show network.deviceArena.record device = some row from found] at resident
  exact Option.isSome_iff_exists.mp resident

/-- Every partition of a resident device is in an island. -/
theorem islandOf_isSome (h : Beside registry network self) {c : DeviceComponent}
    {definition : DeviceDefinition F} (known : network.definitionOf registry c.device = some definition)
    (inRange : c.partition.index < definition.partitionCount) :
    ∃ island, self.islandOf network c = some island := by
  obtain ⟨row, record, -⟩ := Option.bind_eq_some_iff.mp known
  obtain ⟨islands, found⟩ := h.islandsOf_isSome record
  have inside : c.partition.index < islands.length := h.length_islandsOf found known ▸ inRange
  exact ⟨islands[c.partition.index], by rw [islandOf, found, Option.bind_some, List.getElem?_eq_getElem inside]⟩

theorem rowIslands_eq (h : Beside registry network self) {device : DeviceId} {islands : List IslandId}
    (found : self.islandsOf network device = some islands) :
    self.rowIslands network device = some islands := by
  obtain ⟨loc, chunk, located, hc, shaped, read, -⟩ := h.site found
  rw [rowIslands, bind_of_eq_some (Network.locationOf_some located), bind_of_eq_some hc,
    DeviceTopologyChunk.rowIslands_eq shaped, read]

theorem componentLocation_eq (h : Beside registry network self) {c : DeviceComponent}
    {island : IslandId} (found : self.islandOf network c = some island) :
    ∃ loc chunk islands, network.deviceArena.locAt c.device.index = some loc ∧
      self.deviceChunks[loc.1]? = some chunk ∧ chunk.Shaped ∧ chunk.rows[loc.2]? = some islands ∧
      loc.2 < chunk.rowCount ∧ c.partition.index < chunk.partitionCount ∧
      islands[c.partition.index]? = some island ∧
      self.componentLocation network c = some (loc.1, loc.2, c.partition.index) := by
  obtain ⟨islands, row, at'⟩ := Option.bind_eq_some_iff.mp found
  obtain ⟨loc, chunk, located, hc, shaped, read, inside, width⟩ := h.site row
  have narrow : c.partition.index < chunk.partitionCount :=
    width ▸ (List.getElem?_eq_some_iff.mp at').1
  refine ⟨loc, chunk, islands, located, hc, shaped, read, inside, narrow, at', ?_⟩
  rw [componentLocation, bind_of_eq_some (Network.locationOf_some located), bind_of_eq_some hc,
    if_pos ⟨inside, narrow⟩]

theorem componentIsland_eq (h : Beside registry network self) {c : DeviceComponent}
    {island : IslandId} (found : self.islandOf network c = some island) :
    self.componentIsland network c = some island := by
  obtain ⟨loc, chunk, islands, -, hc, shaped, read, -, -, at', run⟩ := h.componentLocation_eq found
  rw [componentIsland, bind_of_eq_some run]
  dsimp only
  rw [bind_of_eq_some hc, DeviceTopologyChunk.componentIsland_eq, read, Option.bind_some, at']

/-- The slot of a live component among its chunk's marks. -/
theorem componentStorageIndex_eq (h : Beside registry network self) {c : DeviceComponent}
    {island : IslandId} (found : self.islandOf network c = some island) :
    ∃ loc chunk, network.deviceArena.locAt c.device.index = some loc ∧
      self.deviceChunks[loc.1]? = some chunk ∧ loc.2 < chunk.rowCount ∧
      c.partition.index < chunk.partitionCount ∧
      self.componentStorageIndex network c =
        some (loc.1, loc.2 * chunk.partitionCount + c.partition.index) := by
  obtain ⟨loc, chunk, -, located, hc, -, -, inside, narrow, -, run⟩ := h.componentLocation_eq found
  refine ⟨loc, chunk, located, hc, inside, narrow, ?_⟩
  rw [componentStorageIndex, bind_of_eq_some run]
  dsimp only
  rw [bind_of_eq_some hc]

/-- Two live components in one slot are one component. -/
theorem storageIndex_inj (h : Beside registry network self) {c d : DeviceComponent}
    {i j : IslandId} (hc : self.islandOf network c = some i) (hd : self.islandOf network d = some j)
    (same : self.componentStorageIndex network c = self.componentStorageIndex network d) : c = d := by
  obtain ⟨loc, chunk, located, at', -, narrow, run⟩ := h.componentStorageIndex_eq hc
  obtain ⟨loc', chunk', located', at'', -, narrow', run'⟩ := h.componentStorageIndex_eq hd
  rw [run, run'] at same
  obtain ⟨chunks, slots⟩ := Prod.mk.inj (Option.some.inj same)
  rw [chunks] at at'
  obtain rfl := Option.some.inj (at'.symm.trans at'')
  have rows : loc.2 = loc'.2 := by
    rcases Nat.lt_trichotomy loc.2 loc'.2 with below | same | above
    · have := mul_add_lt chunk.partitionCount below narrow
      omega
    · exact same
    · have := mul_add_lt chunk.partitionCount above narrow'
      omega
  have partitions : c.partition.index = d.partition.index := by
    rw [rows] at slots
    omega
  obtain ⟨x, hx, kx⟩ := h.arena.indexes.located _ _ located
  obtain ⟨y, hy, ky⟩ := h.arena.indexes.located _ _ located'
  rw [Prod.ext chunks rows] at hx
  obtain rfl := Option.some.inj (hx.symm.trans hy)
  have devices : c.device = d.device := NonZeroId.index_inj.mp (kx.symm.trans ky)
  cases c
  cases d
  obtain rfl := Id.ext' partitions
  cases devices
  rfl

theorem setComponentIsland_spec (h : Beside registry network self) {c : DeviceComponent}
    {old : IslandId} (found : self.islandOf network c = some old) (island : IslandId) :
    ∃ chunks, self.setComponentIsland network c island = some { self with deviceChunks := chunks } ∧
      Beside registry network { self with deviceChunks := chunks } ∧
      ∀ other, islandOf { self with deviceChunks := chunks } network other =
        if other = c then some island else self.islandOf network other := by
  obtain ⟨loc, chunk, islands, located, hc, shaped, read, inside, narrow, at', run⟩ :=
    h.componentLocation_eq found
  have width := DeviceTopologyChunk.width shaped read
  obtain ⟨edited, set, shaped', rows, stride, -⟩ :=
    DeviceTopologyChunk.setComponentIsland_spec shaped read (width ▸ narrow) island
  obtain ⟨aligned, found'⟩ := h.aligned.written h.arena located hc read shaped' stride rows
  refine ⟨self.deviceChunks.set loc.1 edited, ?_, ⟨h.arena, aligned⟩, ?_⟩
  · rw [setComponentIsland, bind_of_eq_some run]
    dsimp only
    rw [bind_of_eq_some hc, bind_of_eq_some set]
  · intro other
    rw [islandOf, islandsOf, found', islandOf]
    have row : self.islandsOf network c.device = some islands := by
      obtain ⟨row, hr, hp⟩ := Option.bind_eq_some_iff.mp found
      obtain ⟨loc', chunk', located', hc', -, read', -⟩ := h.site hr
      obtain rfl := Option.some.inj (located.symm.trans located')
      obtain rfl := Option.some.inj (hc.symm.trans hc')
      obtain rfl := Option.some.inj (read.symm.trans read')
      exact hr
    by_cases device : other.device = c.device
    · rw [if_pos device, Option.bind_some, device, row, Option.bind_some]
      by_cases partition : other.partition.index = c.partition.index
      · have same : other = c := by
          cases other
          cases c
          obtain rfl := Id.ext' partition
          cases device
          rfl
        rw [if_pos same, partition, List.getElem?_set_self (width ▸ narrow)]
      · rw [if_neg fun same : other = c => partition (by rw [same]), List.getElem?_set_ne (Ne.symm partition)]
    · rw [if_neg device, if_neg fun same : other = c => device (by rw [same])]
      rfl

theorem setComponentIslands_spec (components : List DeviceComponent) (island : IslandId)
    {self : DerivedTopology} (h : Beside registry network self)
    (live : ∀ c ∈ components, ∃ old, self.islandOf network c = some old) :
    ∃ chunks, components.foldlM (fun self c => self.setComponentIsland network c island) self =
        some { self with deviceChunks := chunks } ∧
      Beside registry network { self with deviceChunks := chunks } ∧
      ∀ other, islandOf { self with deviceChunks := chunks } network other =
        if other ∈ components then some island else self.islandOf network other := by
  induction components generalizing self with
  | nil => exact ⟨self.deviceChunks, rfl, h, fun other => by rw [if_neg List.not_mem_nil]⟩
  | cons c components ih =>
    obtain ⟨old, found⟩ := live c List.mem_cons_self
    obtain ⟨chunks, run, h', found'⟩ := h.setComponentIsland_spec found island
    obtain ⟨chunks', run', h'', found''⟩ := ih h' fun d member => by
      rw [found']
      split
      · exact ⟨island, rfl⟩
      · exact live d (List.mem_cons_of_mem _ member)
    refine ⟨chunks', ?_, h'', ?_⟩
    · rw [List.foldlM_cons, bind_of_eq_some run]
      exact run'
    · intro other
      rw [found'', found']
      by_cases here : other = c
      · simp [here]
      · simp [here]

end Beside

/-- The same chunks at the same places. -/
theorem islandOf_congr {network' : Network F} (chunks : next.deviceChunks = self.deviceChunks)
    (directory : network'.deviceArena.directory = network.deviceArena.directory)
    (c : DeviceComponent) : next.islandOf network' c = self.islandOf network c := by
  rw [islandOf, islandOf, islandsOf, islandsOf, Sidecar.rowOf, Sidecar.rowOf, chunks]
  rw [show network'.deviceArena.locAt = network.deviceArena.locAt from funext fun i => by
    rw [DeviceArena.locAt, DeviceArena.locAt, directory]]

end DerivedTopology

end Hynergy
