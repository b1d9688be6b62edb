import Hynergy.Topology.Attachments
import Hynergy.Topology.Invalidation
import Mathlib.Algebra.Order.BigOperators.Group.List

/-!
# A maintained topology

The derived topology is the one of the network, what an edit has to keep, and room for it.
Adding a wire is the simplest edit.
-/

namespace Hynergy

open Lib Relation

variable {F : Type}

namespace DerivedTopology

variable {registry : DefinitionRegistry F} {network network' : Network F} {self next : DerivedTopology}

/-- The derived topology is the one of the network. -/
structure Maintained (registry : DefinitionRegistry F) (network : Network F) (topology : DerivedTopology) :
    Prop where
  consistent : network.Consistent registry
  nets : NetsSound registry network topology
  islands : IslandsSound registry network topology
  invalidation : InvalidationOk topology

/-- The net of the wire a terminal is attached to. -/
def netAt (topology : DerivedTopology) (network : Network F) (device : DeviceId) (t : Nat) :
    Option NetId := (network.attachedWire device t).bind topology.wireNet

/-- The component's terminals are on the nets they were on. -/
structure SameNodes (registry : DefinitionRegistry F) (network network' : Network F)
    (before after : DerivedTopology) (c : DeviceComponent) : Prop where
  definition : network'.definitionIdAt c.device = network.definitionIdAt c.device
  nets : ∀ definition t, network.definitionOf registry c.device = some definition →
    definition.terminalPartitions[t]? = some c.partition →
      after.netAt network' c.device t = before.netAt network c.device t

/-- An edit kept the topology up to date, and marked every island whose components or nodes
changed. -/
structure Maintains (registry : DefinitionRegistry F) (network network' : Network F)
    (before after : DerivedTopology) : Prop where
  maintained : Maintained registry network' after
  dirtied : Dirtied before after
  nodes : ∀ j island, after.islands.get j = some island → j ∉ after.invalidation.topologyDirty →
    ∀ c ∈ island.components, SameNodes registry network network' before after c

/-- The net a component's terminal is attached to is in the component's island. -/
theorem Maintained.net_of_attached (h : Maintained registry network self) {c : DeviceComponent}
    {t : Nat} {wire : WireId} {definition : DeviceDefinition F}
    (attached : network.attachedWire c.device t = some wire)
    (known : network.definitionOf registry c.device = some definition)
    (read : definition.terminalPartitions[t]? = some c.partition) :
    ∃ id, self.wireNet wire = some id ∧ self.Touches id c ∧
      self.islandOfNet id = self.islandOf network c := by
  obtain ⟨id, on⟩ := h.nets.isSome (Network.attachedWire_live h.consistent attached)
  obtain ⟨net, held, -⟩ := h.nets.named wire id on
  have touches : self.Touches id c := (touches_iff h.nets not_false held c).mpr
    ⟨t, wire, definition, attached, on, known, read⟩
  exact ⟨id, on, touches, h.islands.coarse (.net id) (.component c) touches⟩

/-- The nodes of a component whose island's nets stay. -/
theorem SameNodes.of_elsewhere (h : Maintained registry network self) {c : DeviceComponent}
    (definition : network'.definitionIdAt c.device = network.definitionIdAt c.device)
    (free : ∀ t, network.attachedWire c.device t = none → network'.attachedWire c.device t = none)
    (wires : ∀ t wire id, network.attachedWire c.device t = some wire → self.wireNet wire = some id →
      self.islandOfNet id = self.islandOf network c →
        network'.attachedWire c.device t = some wire ∧ next.wireNet wire = some id) :
    SameNodes registry network network' self next c := by
  refine ⟨definition, fun definition' t known read => ?_⟩
  rw [netAt, netAt]
  cases there : network.attachedWire c.device t with
  | none => rw [free t there, Option.bind_none, Option.bind_none]
  | some wire =>
    obtain ⟨id, on, -, same⟩ := h.net_of_attached there known read
    obtain ⟨attached, on'⟩ := wires t wire id there on same
    rw [attached, Option.bind_some, Option.bind_some, on, on']

/-! ### Room -/

/-- Into how many nets a net's wires fall. -/
noncomputable def netPieces (wiring : Wiring) (topology : DerivedTopology) (id : NetId) : Nat :=
  classCount wiring.edge {wire | topology.wireNet wire = some id ∧ wiring.live wire}

/-- An island without the devices that are gone. -/
def leftIsland (wiring : Wiring) (island : IslandTopology) : IslandTopology :=
  { island with components := island.components.filter fun c => wiring.resident c.device }

/-- How many new islands the wiring asks for in place of an island. -/
noncomputable def newIslands (wiring : Wiring) (topology : DerivedTopology) (j : IslandId) : Nat :=
  ((topology.islands.get j).map fun island =>
    classCount wiring.Coupled {c | c ∈ (leftIsland wiring island).components} - 1).getD 0

/-- The islands need more ids than there are, or one of them that stays has the last revision. -/
def IslandsShort (wiring : Wiring) (topology : DerivedTopology) (ids : List IslandId) : Prop :=
  topology.islands.unused < (ids.map (topology.newIslands wiring)).sum ∨
    ∃ j ∈ ids, ∃ island, topology.islands.get j = some island ∧ (leftIsland wiring island).components ≠ [] ∧
      2 ^ 64 ≤ island.revision + 1

section Short

variable {wiring : Wiring}

theorem leftIsland_eq {island : IslandTopology}
    (left : ∀ c ∈ island.components, wiring.resident c.device = true) : leftIsland wiring island = island := by
  rw [leftIsland, List.filter_eq_self.mpr left]

/-- One island more falls short if it asks for more ids than the ones before it have left. -/
theorem islandsShort_concat {done : List IslandId} {i : IslandId} {island : IslandTopology}
    (held : self.islands.get i = some island)
    (left : ∀ c ∈ island.components, wiring.resident c.device = true) :
    IslandsShort wiring self (done ++ [i]) ↔ IslandsShort wiring self done ∨
      RepairShort wiring island (self.islands.unused - (done.map (self.newIslands wiring)).sum) := by
  have same := leftIsland_eq left
  have count : self.newIslands wiring i =
      classCount wiring.Coupled {c | c ∈ island.components} - 1 := by
    rw [newIslands, held, Option.map_some, Option.getD_some, same]
  rw [IslandsShort, IslandsShort, RepairShort, List.map_append, List.sum_append, List.map_singleton,
    List.sum_singleton, count]
  constructor
  · rintro (few | ⟨j, member, other, there, spent⟩)
    · by_cases before : self.islands.unused < (done.map (self.newIslands wiring)).sum
      · exact Or.inl (Or.inl before)
      · exact Or.inr (Or.inl (by omega))
    · rcases List.mem_append.mp member with earlier | here
      · exact Or.inl (Or.inr ⟨j, earlier, other, there, spent⟩)
      · rw [List.mem_singleton.mp here, held] at there
        obtain rfl := Option.some.inj there
        exact Or.inr (Or.inr ⟨same ▸ spent.1, spent.2⟩)
  · rintro ((few | ⟨j, member, other, there, spent⟩) | few | spent)
    · exact Or.inl (by omega)
    · exact Or.inr ⟨j, List.mem_append_left _ member, other, there, spent⟩
    · exact Or.inl (by omega)
    · exact Or.inr ⟨i, List.mem_append_right _ (List.mem_singleton.mpr rfl), island, held, same.symm ▸ spent.1,
        spent.2⟩

theorem islandsShort_single {i : IslandId} {island : IslandTopology} (held : self.islands.get i = some island)
    (left : ∀ c ∈ island.components, wiring.resident c.device = true) :
    IslandsShort wiring self [i] ↔ RepairShort wiring island self.islands.unused := by
  have none' : ¬ IslandsShort wiring self [] := by simp [IslandsShort]
  have concat := @islandsShort_concat self wiring [] i island held left
  rw [List.nil_append, or_iff_right none', List.map_nil, List.sum_nil, Nat.sub_zero] at concat
  exact concat

theorem IslandsShort.more {done rest : List IslandId} (short : IslandsShort wiring self done) :
    IslandsShort wiring self (done ++ rest) := by
  rcases short with few | ⟨j, member, spent⟩
  · refine Or.inl (few.trans_le ?_)
    rw [List.map_append, List.sum_append]
    exact Nat.le_add_right _ _
  · exact Or.inr ⟨j, List.mem_append_left _ member, spent⟩

end Short

/-- The devices of an island are in the network. -/
theorem Maintained.resident (h : Maintained registry network self) {i : IslandId} {island : IslandTopology}
    (held : self.islands.get i = some island) {c : DeviceComponent} (member : c ∈ island.components) :
    (network.record c.device).isSome = true := by
  obtain ⟨row, found⟩ := h.islands.beside.record_of_islandOf (h.islands.members i island held c member)
  rw [found]
  rfl

/-! ### Adding a wire -/

theorem ensureSlot_spec {α : Type} (map : List (Option α)) (index : Nat) :
    index < (ensureSlot map index).length ∧ map.length ≤ (ensureSlot map index).length ∧
      ∀ i : Nat, (ensureSlot map index)[i]?.join = map[i]?.join := by
  unfold ensureSlot
  split
  · refine ⟨by rw [List.length_append, List.length_replicate]; omega,
      by rw [List.length_append]; exact Nat.le_add_right .., fun i => ?_⟩
    rw [List.getElem?_append]
    split
    · rfl
    · rw [List.getElem?_eq_none (show map.length ≤ i by omega), List.getElem?_replicate]
      split <;> rfl
  · exact ⟨Nat.not_le.mp ‹_›, Nat.le_refl _, fun _ => rfl⟩

theorem addWire_maintains (h : Maintained registry network self) {id : WireId}
    (consistent : network'.Consistent registry) (added : Network.WireAdded network network' id) :
    Returns (self.nets.unused = 0) (self.addWire id)
      fun next => 0 < self.nets.unused ∧ Maintains registry network network' self next := by
  obtain ⟨inside, grown', slots⟩ := ensureSlot_spec self.wireNetMap id.index
  unfold addWire
  refine (DenseIdStore.insert_returns h.nets.sound _).bind fun result inserted => ?_
  obtain ⟨new, nets⟩ := result
  obtain ⟨room, grown⟩ := inserted
  dsimp only at grown ⊢
  obtain ⟨map, run, length, entries⟩ := @setWireNet_spec { self with
    wireNetMap := ensureSlot self.wireNetMap id.index, nets,
    netIslandMap := self.netIslandMap ++ [none] } id inside (some new)
  refine Returns.of_eq_some run ⟨room, ?_⟩
  -- the wire was on no net, and no terminal is attached to it
  have free : self.wireNet id = none := by
    have := h.nets.live id
    rw [added.free] at this
    exact Option.isSome_eq_false_iff.mp this |> Option.isNone_iff_eq_none.mp
  have wireNet' : ∀ wire, map[wire.index]?.join = if wire = id then some new else self.wireNet wire := by
    intro wire
    rw [entries]
    split
    · rfl
    · exact slots wire.index
  have same : Network.SameAttachments network network' := .of_lists h.consistent consistent
    (.of_arena added.arena) fun _ _ _ _ => added.lists _ _
  have detached : ∀ device t, network'.attachedWire device t ≠ some id := by
    intro device t attached
    rw [same.attached] at attached
    obtain ⟨net, on⟩ := h.nets.isSome (Network.attachedWire_live h.consistent attached)
    simp [free] at on
  have unknown : ∀ wire, self.wireNet wire ≠ some new := by
    intro wire on
    obtain ⟨net, held, -⟩ := h.nets.named wire new on
    simp [grown.fresh] at held
  have getOld : ∀ m net, nets.get m = some net → m ≠ new → self.nets.get m = some net := by
    intro m net held different
    rwa [grown.get, if_neg different] at held
  have edges : network'.WireEdge = network.WireEdge := by
    funext u v
    exact propext (added.lists (.wire u) (.wire v))
  have labels : Labels network'.LiveWire network'.WireEdge (fun wire : WireId => map[wire.index]?.join) := by
    rw [edges]
    refine h.nets.labels.insert h.consistent.undirected (w := id) (fun u => ?_) ?_ (fun u hu => ?_) fun u _ => ?_
    · rw [Network.LiveWire, added.slots, Network.LiveWire]
      by_cases same : u = id
      · simp [same]
      · simp [same]
    · rw [Network.LiveWire, added.free]
      simp
    · rw [wireNet', if_neg]
      intro same
      rw [Network.LiveWire, same, added.free] at hu
      simp at hu
    · rw [wireNet', if_pos rfl]
      exact (unknown u).symm
  let after : DerivedTopology := { self with
    wireNetMap := map, nets, netIslandMap := self.netIslandMap ++ [none] }
  have touches : ∀ m c, after.Touches m c ↔ self.Touches m c := by
    intro m c
    constructor
    · intro there
      obtain ⟨net, held, member⟩ := there
      by_cases isNew : m = new
      · rw [isNew] at held
        obtain rfl := Option.some.inj (((grown.get new).trans (if_pos rfl)).symm.trans held)
        exact absurd member List.not_mem_nil
      · exact ⟨net, getOld m net held isNew, member⟩
    · intro there
      obtain ⟨net, held, member⟩ := there
      refine ⟨net, (grown.get m).trans ?_, member⟩
      rw [if_neg, held]
      intro isNew
      rw [isNew, grown.fresh] at held
      simp at held
  have islandOf : ∀ m, after.islandOfNet m = self.islandOfNet m := by
    intro m
    show (self.netIslandMap ++ [none])[m.index]?.join = _
    rw [join_getElem?_concat]
    split
    · rename_i last
      rw [islandOfNet, netIsland, List.getElem?_eq_none (Nat.le_of_eq last.symm)]
      rfl
    · rfl
  refine ⟨⟨consistent, ⟨grown.sound, fun wire => ?_, fun wire m on => ?_, fun m net held => ?_,
    fun m net held wire member => ?_, fun m net _ held => ?_, fun m net _ held device => ?_, labels.coarse,
    fun m _ => labels.exact (some m)⟩, ?_, h.invalidation.of_same rfl rfl⟩, .of_same rfl rfl,
    fun j island held off c member => ?_⟩
  · refine (congrArg Option.isSome (wireNet' wire)).trans ?_
    rw [added.slots]
    split
    · rfl
    · exact h.nets.live wire
  · have on' := (wireNet' wire).symm.trans on
    split at on'
    · obtain rfl := Option.some.inj on'
      exact ⟨_, (grown.get new).trans (if_pos rfl), by simp_all⟩
    · obtain ⟨net, held, member⟩ := h.nets.named wire m on'
      refine ⟨net, (grown.get m).trans ?_, member⟩
      rw [if_neg, held]
      intro isNew
      exact unknown wire (isNew ▸ on')
  · by_cases isNew : m = new
    · rw [isNew] at held
      obtain rfl := Option.some.inj (((grown.get new).trans (if_pos rfl)).symm.trans held)
      exact List.nodup_singleton _
    · exact h.nets.nodup m net (getOld m net held isNew)
  · rw [length]
    by_cases isNew : m = new
    · rw [isNew] at held
      obtain rfl := Option.some.inj (((grown.get new).trans (if_pos rfl)).symm.trans held)
      rw [List.mem_singleton.mp member]
      exact inside
    · exact Nat.lt_of_lt_of_le (h.nets.mapped m net (getOld m net held isNew) wire member) grown'
  · by_cases isNew : m = new
    · rw [isNew] at held ⊢
      obtain rfl := Option.some.inj (((grown.get new).trans (if_pos rfl)).symm.trans held)
      refine ⟨by simp, fun wire member => (wireNet' wire).trans (if_pos (List.mem_singleton.mp member))⟩
    · obtain ⟨some', on⟩ := h.nets.wires m net not_false (getOld m net held isNew)
      refine ⟨some', fun wire member => (wireNet' wire).trans ?_⟩
      rw [if_neg, on wire member]
      intro same
      have := on wire member
      rw [same, free] at this
      simp at this
  · show (net.terminalComponents.filter _).Perm (network'.incidences registry
      (fun wire => decide (map[wire.index]?.join = some m)) device)
    have onlyOld : network'.incidences registry (fun wire => decide (map[wire.index]?.join = some m)) device =
        network.incidences registry (fun wire => decide (self.wireNet wire = some m)) device := by
      rw [← same.incidences]
      apply Network.incidences_on
      intro t wire attached
      rw [wireNet', if_neg fun e : wire = id => detached device t (e ▸ attached)]
    rw [onlyOld]
    by_cases isNew : m = new
    · rw [isNew] at held ⊢
      obtain rfl := Option.some.inj (((grown.get new).trans (if_pos rfl)).symm.trans held)
      have nothing : network.incidences registry (fun wire => decide (self.wireNet wire = some new)) device = [] := by
        rw [List.eq_nil_iff_forall_not_mem]
        intro c member
        obtain ⟨-, _, wire, _, -, on, -⟩ := Network.mem_incidences.mp member
        exact unknown wire (of_decide_eq_true on)
      rw [nothing]
      exact .refl _
    · exact h.nets.terminals m net not_false (getOld m net held isNew) device
  · exact h.islands.congr consistent (by rw [added.arena]) (by rw [added.arena]) rfl rfl (by
      rw [List.length_append, h.islands.map, List.length_singleton]
      exact grown.slots.symm) islandOf (fun m gone => h.islands.removed m (by
        have gone' := (grown.get m).symm.trans gone
        split at gone'
        · simp at gone'
        · exact gone')) touches
  · refine .of_elsewhere h (same.places.definitions c.device) (fun t free' => ?_)
      fun t wire net attached on _ => ⟨?_, (wireNet' wire).trans ?_⟩
    · rw [same.attached, free']
    · rw [same.attached, attached]
    · rw [if_neg, on]
      intro e
      rw [e, free] at on
      simp at on

end DerivedTopology

end Hynergy
