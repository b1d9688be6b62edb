import Hynergy.Topology.Invariant

/-!
# Edits of the network under the topology

What an edit of the network does to the attached wires, and what it leaves of the derived
topology.
-/

namespace Hynergy

open Lib

variable {F : Type}

namespace Network

variable {registry : DefinitionRegistry F} {self next : Network F}

/-- The definition of a resident device. -/
def definitionIdAt (self : Network F) (device : DeviceId) : Option DefinitionId :=
  (self.record device).map DeviceRow.definitionId

theorem definitionOf_eq (device : DeviceId) :
    self.definitionOf registry device = (self.definitionIdAt device).bind registry.get := by
  rw [definitionOf, definitionIdAt]
  cases self.record device <;> rfl

/-- The same devices of the same definitions at the same places. -/
structure SamePlaces (before after : Network F) : Prop where
  directory : after.deviceArena.directory = before.deviceArena.directory
  heads : after.deviceArena.heads = before.deviceArena.heads
  definitions : ∀ device, after.definitionIdAt device = before.definitionIdAt device
  counts : ∀ device, after.terminalCount device = before.terminalCount device

theorem SamePlaces.resident {before after : Network F} (h : SamePlaces before after) (device : DeviceId) :
    (after.record device).isSome = (before.record device).isSome := by
  have same := congrArg Option.isSome (h.definitions device)
  rwa [definitionIdAt, definitionIdAt, Option.isSome_map, Option.isSome_map] at same

theorem SameDevices.places {before after : Network F} (h : SameDevices before after) :
    SamePlaces before after := by
  refine ⟨h.directory, h.heads, fun device => ?_, fun device => ?_⟩
  · have := congrArg (Option.map fun b : DeviceId × DefinitionId × List F × Nat => b.2.1) (h.rows device)
    rw [Option.map_map, Option.map_map] at this
    exact this
  · have := congrArg (Option.map fun b : DeviceId × DefinitionId × List F × Nat => b.2.2.2) (h.rows device)
    rw [Option.map_map, Option.map_map] at this
    exact congrArg (Option.getD · 0) this

theorem SamePlaces.of_arena {before after : Network F} (same : after.deviceArena = before.deviceArena) :
    SamePlaces before after := (SameDevices.of_arena same).places

theorem SamePlaces.symm {before after : Network F} (h : SamePlaces before after) :
    SamePlaces after before :=
  ⟨h.directory.symm, h.heads.symm, fun device => (h.definitions device).symm,
    fun device => (h.counts device).symm⟩

theorem SamePlaces.incidences {before after : Network F} (h : SamePlaces before after)
    {on on' : WireId → Bool} {device : DeviceId}
    (same : ∀ t, (after.attachedWire device t).filter on' = (before.attachedWire device t).filter on) :
    after.incidences registry on' device = before.incidences registry on device := by
  refine incidences_congr (h.counts device) ?_ same
  rw [definitionOf_eq, definitionOf_eq, h.definitions]

/-! ### The wiring after an edit -/

theorem SamePlaces.partitionOf {before after : Network F} (h : SamePlaces before after) :
    (after.wiring registry).partitionOf = (before.wiring registry).partitionOf := by
  funext device t
  show (after.definitionOf registry device).bind _ = (before.definitionOf registry device).bind _
  rw [definitionOf_eq, definitionOf_eq, h.definitions]

theorem WireRemoved.wiring {before after : Network F} {id : WireId} (removed : WireRemoved before after id) :
    after.wiring registry = (before.wiring registry).withoutWire id := by
  have places := removed.devices.places
  refine Wiring.ext (funext fun wire => propext ?_) (funext fun x => funext fun y => propext (removed.lists x y))
    (funext places.resident) places.partitionOf
  show (after.wireSlot wire).isSome = true ↔ (before.wireSlot wire).isSome = true ∧ wire ≠ id
  by_cases same : wire = id
  · subst same
    simp [removed.gone]
  · rw [removed.stays wire same]
    simp [same]

theorem Relinked.wiring {before after : Network F} {x y : ConnectionRef}
    (relinked : Relinked registry before after (Unlink before.Lists x y)) :
    after.wiring registry = (before.wiring registry).withoutLink x y := by
  have places := relinked.same.devices.places
  refine Wiring.ext (funext fun wire => ?_) (funext fun x => funext fun y => propext (relinked.lists x y))
    (funext places.resident) places.partitionOf
  show ((after.wireSlot wire).isSome = true) = ((before.wireSlot wire).isSome = true)
  rw [relinked.same.wires.live]

theorem DeviceRemoved.wiring {before after : Network F} {id : DeviceId} {row : DeviceRow F} {loc : Loc}
    {chunk : DeviceChunk F} {result : DeviceRemoveResult}
    (removed : DeviceRemoved registry before after id row loc chunk result) :
    after.wiring registry = (before.wiring registry).withoutDevice id := by
  refine Wiring.ext (funext fun wire => ?_) (funext fun x => funext fun y => propext (removed.lists x y))
    (funext fun device => ?_) (funext fun device => funext fun t => ?_)
  · show ((after.wireSlot wire).isSome = true) = ((before.wireSlot wire).isSome = true)
    rw [removed.wires.live]
  · show (after.record device).isSome = ((before.record device).isSome && decide (device ≠ id))
    by_cases same : device = id
    · rw [same, show after.record id = none from removed.removed.removed]
      simp
    · rw [show after.record device = before.record device from removed.removed.kept device same]
      simp [same]
  · show (after.definitionOf registry device).bind _ = if device = id then none else
      (before.definitionOf registry device).bind _
    by_cases same : device = id
    · rw [if_pos same, same, definitionOf, show after.record id = none from removed.removed.removed]
      rfl
    · rw [if_neg same, definitionOf, definitionOf,
        show after.record device = before.record device from removed.removed.kept device same]

/-- Only edges between wires differ. -/
structure SameAttachments (before after : Network F) : Prop where
  places : SamePlaces before after
  attached : ∀ device t, after.attachedWire device t = before.attachedWire device t

theorem SameAttachments.incidences {before after : Network F} (h : SameAttachments before after)
    (on : WireId → Bool) (device : DeviceId) :
    after.incidences registry on device = before.incidences registry on device :=
  h.places.incidences fun t => by rw [h.attached]

/-- The attached wires are what the terminals list. -/
theorem SameAttachments.of_lists (h : Consistent registry self) (h' : Consistent registry next)
    (places : SamePlaces self next)
    (lists : ∀ device port fits wire, next.Lists (.terminal device port fits) (.wire wire) ↔
      self.Lists (.terminal device port fits) (.wire wire)) : SameAttachments self next := by
  refine ⟨places, fun device t => Option.ext fun wire => ?_⟩
  rw [attachedWire_iff h', attachedWire_iff h]
  constructor
  · intro there
    obtain ⟨fits, listed⟩ := there
    exact ⟨fits, (lists _ _ _ _).mp listed⟩
  · intro there
    obtain ⟨fits, listed⟩ := there
    exact ⟨fits, (lists _ _ _ _).mpr listed⟩

/-- One terminal is attached to a wire in `after` and free in `before`. -/
structure AttachedAt (before after : Network F) (wire : WireId) (device : DeviceId) (t : Nat) : Prop where
  places : SamePlaces before after
  free : before.attachedWire device t = none
  attached : after.attachedWire device t = some wire
  others : ∀ other i, ¬ (other = device ∧ i = t) →
    after.attachedWire other i = before.attachedWire other i

/-- A free terminal is linked to a wire. -/
theorem AttachedAt.of_link {before after : Network F} (h : before.Consistent registry)
    {wire : WireId} {device : DeviceId} {terminal : TerminalId} {fits : terminal.id < 2 ^ 31}
    (free : ∀ c, ¬ before.Lists (.terminal device terminal fits) c)
    (linked : Relinked registry before after
      (Link before.Lists (.wire wire) (.terminal device terminal fits))) :
    AttachedAt before after wire device terminal.index := by
  refine ⟨linked.same.devices.places, ?_, ?_, fun other i different => Option.ext fun w => ?_⟩
  · cases attached : before.attachedWire device terminal.index with
    | none => rfl
    | some w =>
      obtain ⟨fits, listed⟩ := (attachedWire_iff h).mp attached
      exact absurd listed (free _)
  · exact (attachedWire_iff linked.consistent).mpr
      ⟨fits, (linked.lists _ _).mpr (Or.inr (Or.inr ⟨rfl, rfl⟩))⟩
  · rw [attachedWire_iff linked.consistent, attachedWire_iff h]
    refine exists_congr fun fits' => (linked.lists _ _).trans ?_
    constructor
    · intro there
      rcases there with old | ⟨both, -⟩ | ⟨both, -⟩
      · exact old
      · cases both
      · cases both
        exact absurd ⟨rfl, rfl⟩ different
    · exact Or.inl

/-- A terminal is unlinked from its wire. -/
theorem AttachedAt.of_unlink {before after : Network F} (h : before.Consistent registry)
    {wire : WireId} {device : DeviceId} {terminal : TerminalId} {fits : terminal.id < 2 ^ 31}
    (listed : before.Lists (.wire wire) (.terminal device terminal fits))
    (unlinked : Relinked registry before after
      (Unlink before.Lists (.wire wire) (.terminal device terminal fits))) :
    AttachedAt after before wire device terminal.index := by
  have attached : before.attachedWire device terminal.index = some wire :=
    (attachedWire_iff h).mpr ⟨fits, h.edges.symm _ _ listed⟩
  refine ⟨unlinked.same.devices.places.symm, ?_, attached, fun other i different => Option.ext fun w => ?_⟩
  · cases left : after.attachedWire device terminal.index with
    | none => rfl
    | some w =>
      obtain ⟨fits', listed'⟩ := (attachedWire_iff unlinked.consistent).mp left
      obtain ⟨old, -, other⟩ := (unlinked.lists _ _).mp listed'
      have same := attached.symm.trans ((attachedWire_iff h).mpr ⟨fits', old⟩)
      obtain rfl := Option.some.inj same
      exact absurd ⟨rfl, rfl⟩ other
  · rw [attachedWire_iff unlinked.consistent, attachedWire_iff h]
    refine exists_congr fun fits' => Iff.symm ((unlinked.lists _ _).trans ?_)
    constructor
    · exact And.left
    · intro old
      refine ⟨old, fun both => ?_, fun both => ?_⟩
      · cases both.1
      · cases both.1
        exact different ⟨rfl, rfl⟩

/-- The incidences where one more terminal is attached. -/
theorem AttachedAt.incidences {before after : Network F} {wire : WireId} {device : DeviceId} {t : Nat}
    (h : AttachedAt before after wire device t) {definition : DeviceDefinition F}
    {partition : DevicePartitionId} (known : before.definitionOf registry device = some definition)
    (read : definition.terminalPartitions[t]? = some partition) (on : WireId → Bool) (other : DeviceId) :
    (after.incidences registry on other).Perm
      (if on wire ∧ other = device then ⟨device, partition⟩ :: before.incidences registry on other
      else before.incidences registry on other) := by
  by_cases same : other = device
  · subst same
    have := @incidences_edit F registry before after on other t wire definition partition (h.places.counts other) known
      (by rw [definitionOf_eq, h.places.definitions, ← definitionOf_eq, known]) read h.free h.attached
      fun i different => h.others other i fun both => different both.2
    simpa using this
  · rw [if_neg fun both => same both.2]
    rw [h.places.incidences fun i => by rw [h.others other i fun both => same both.1]]

end Network

namespace DerivedTopology

variable {registry : DefinitionRegistry F} {network network' : Network F} {self next : DerivedTopology}

/-- Edges between wires change. -/
theorem NetsOk.relink {bad bad' : NetId → Prop} (h : NetsOk bad registry network self)
    (more : ∀ id, bad id → bad' id)
    (live : ∀ wire, (network'.wireSlot wire).isSome = (network.wireSlot wire).isSome)
    (same : Network.SameAttachments network network') (coarse : Coarse network'.WireEdge self.wireNet)
    (exact : ∀ id, ¬ bad' id → Exact network'.LiveWire network'.WireEdge self.wireNet (some id)) :
    NetsOk bad' registry network' self := by
  refine ⟨h.sound, fun wire => (h.live wire).trans (live wire).symm, h.named, h.nodup, h.mapped,
    fun id net fine => h.wires id net fun b => fine (more id b), fun id net fine found device => ?_, coarse, exact⟩
  rw [same.incidences]
  exact h.terminals id net (fun b => fine (more id b)) found device

/-- What is attached to the nets changes. -/
theorem NetsOk.relisted (h : NetsSound registry network self)
    (live : ∀ wire, (network'.wireSlot wire).isSome = (network.wireSlot wire).isSome)
    (edges : ∀ u v, network'.WireEdge u v ↔ network.WireEdge u v) (sound : next.nets.Sound)
    (wires : next.wireNetMap = self.wireNetMap)
    (back : ∀ id net, next.nets.get id = some net →
      ∃ old, self.nets.get id = some old ∧ net.wires = old.wires)
    (forth : ∀ id old, self.nets.get id = some old →
      ∃ net, next.nets.get id = some net ∧ net.wires = old.wires)
    (terminals : ∀ id net, next.nets.get id = some net → ∀ device,
      (net.terminalComponents.filter fun c => c.device = device).Perm
        (network'.incidences registry (fun wire => self.wireNet wire = some id) device)) :
    NetsSound registry network' next := by
  have wireNet : next.wireNet = self.wireNet := by
    funext wire
    rw [DerivedTopology.wireNet, DerivedTopology.wireNet, wires]
  have rel : network'.WireEdge = network.WireEdge := by
    funext u v
    exact propext (edges u v)
  have dom : network'.LiveWire = network.LiveWire := by
    funext wire
    rw [Network.LiveWire, Network.LiveWire, live]
  refine ⟨sound, fun wire => ?_, fun wire id on => ?_, fun id net held => ?_, fun id net held wire member => ?_,
    fun id net _ held => ?_, fun id net _ held => ?_, ?_, fun id fine => ?_⟩
  · rw [wireNet, live]
    exact h.live wire
  · rw [wireNet] at on
    obtain ⟨old, held, member⟩ := h.named wire id on
    obtain ⟨net, held', same⟩ := forth id old held
    exact ⟨net, held', same ▸ member⟩
  · obtain ⟨old, held', same⟩ := back id net held
    exact same ▸ h.nodup id old held'
  · obtain ⟨old, held', same⟩ := back id net held
    rw [wires]
    exact h.mapped id old held' wire (same ▸ member)
  · obtain ⟨old, held', same⟩ := back id net held
    rw [same, wireNet]
    exact h.wires id old not_false held'
  · rw [wireNet]
    exact terminals id net held
  · rw [rel, wireNet]
    exact h.coarse
  · rw [dom, rel, wireNet]
    exact h.exact id fine

theorem Beside.relink (h : Beside registry network self) (consistent : network'.Consistent registry)
    (directory : network'.deviceArena.directory = network.deviceArena.directory)
    (heads : network'.deviceArena.heads = network.deviceArena.heads)
    (chunks : next.deviceChunks = self.deviceChunks) : Beside registry network' next :=
  ⟨consistent.arena, chunks ▸ (h.aligned.congr directory heads).1⟩

/-- Neither the islands nor what touches what changes. -/
theorem IslandsOk.congr {bad : IslandId → Prop} (h : IslandsOk bad registry network self)
    (consistent : network'.Consistent registry)
    (directory : network'.deviceArena.directory = network.deviceArena.directory)
    (heads : network'.deviceArena.heads = network.deviceArena.heads)
    (islands : next.islands = self.islands) (chunks : next.deviceChunks = self.deviceChunks)
    (map : next.netIslandMap.length = next.nets.slotCount)
    (labels : ∀ id, next.islandOfNet id = self.islandOfNet id)
    (removed : ∀ id, next.nets.get id = none → self.islandOfNet id = none)
    (touches : ∀ id c, next.Touches id c ↔ self.Touches id c) :
    IslandsOk bad registry network' next := by
  have components : ∀ c, next.islandOf network' c = self.islandOf network c :=
    islandOf_congr chunks directory
  have label : next.islandLabel network' = self.islandLabel network := by
    funext v
    cases v with
    | net id => exact labels id
    | component c => exact components c
  have attached : next.Attached = self.Attached := by
    funext u v
    cases u <;> cases v <;> simp only [Attached, touches]
  have inIsland : next.InIsland network' = self.InIsland network := by
    funext v
    simp only [InIsland, label]
  refine ⟨islands ▸ h.sound, h.beside.relink consistent directory heads chunks, map,
    fun id gone => (labels id).trans (removed id gone), fun net id on => ?_, fun c id on => ?_, ?_,
    fun id island held c member => ?_, ?_, fun net id fine on => ?_, fun net c touching => ?_, ?_,
    fun id fine => ?_⟩
  · rw [islands]
    exact h.alive net id ((labels net).symm.trans on)
  · rw [islands]
    exact h.named c id ((components c).symm.trans on)
  · rw [islands]
    exact h.nodup
  · rw [islands] at held
    exact (components c).trans (h.members id island held c member)
  · rw [islands]
    exact h.nonempty
  · obtain ⟨c, touching⟩ := h.anchored net id fine ((labels net).symm.trans on)
    exact ⟨c, (touches net c).mpr touching⟩
  · rw [labels]
    exact h.reached net c ((touches net c).mp touching)
  · rw [attached, label]
    exact h.coarse
  · rw [attached, label, inIsland]
    exact h.exact id fine

/-- Marks change neither nets nor islands. -/
theorem IslandsLabelled.marked {R : IslandVertex → IslandVertex → Prop} {bad : IslandId → Prop}
    (h : IslandsLabelled R bad registry network self) (invalidation : WorldInvalidation) :
    IslandsLabelled R bad registry network { self with invalidation } :=
  ⟨h.sound, ⟨h.beside.arena, h.beside.aligned⟩, h.map, h.removed, h.alive, h.named, h.nodup, h.members,
    h.nonempty, h.anchored, h.reached, h.coarse, h.exact⟩

/-- Nets do not depend on islands. -/
theorem NetsOk.of_nets {bad : NetId → Prop} (h : NetsOk bad registry network self)
    (nets : next.nets = self.nets) (wires : next.wireNetMap = self.wireNetMap) :
    NetsOk bad registry network next := by
  have wireNet : next.wireNet = self.wireNet := by
    funext wire
    rw [DerivedTopology.wireNet, DerivedTopology.wireNet, wires]
  refine ⟨nets ▸ h.sound, ?_, ?_, ?_, ?_, ?_, ?_, ?_, ?_⟩
  · rw [wireNet]
    exact h.live
  · rw [wireNet, nets]
    exact h.named
  · rw [nets]
    exact h.nodup
  · rw [nets, wires]
    exact h.mapped
  · rw [nets, wireNet]
    exact h.wires
  · rw [nets, wireNet]
    exact h.terminals
  · rw [wireNet]
    exact h.coarse
  · rw [wireNet]
    exact h.exact

/-- An island's revision changes. -/
theorem IslandsLabelled.modified {R : IslandVertex → IslandVertex → Prop} {bad : IslandId → Prop}
    (h : IslandsLabelled R bad registry network self) {islands : DenseIdStore .island IslandTopology}
    {id : IslandId} {old new : IslandTopology} (held : self.islands.get id = some old)
    (changed : DenseIdStore.Changed self.islands islands id new) (same : new.components = old.components) :
    IslandsLabelled R bad registry network { self with islands } := by
  have back : ∀ j island, islands.get j = some island →
      ∃ before, self.islands.get j = some before ∧ before.components = island.components := by
    intro j island here
    rw [changed.get] at here
    split at here
    · rename_i isId
      obtain rfl := Option.some.inj here
      exact ⟨old, isId ▸ held, same.symm⟩
    · exact ⟨island, here, rfl⟩
  have forth : ∀ j before, self.islands.get j = some before →
      ∃ island, islands.get j = some island ∧ before.components = island.components := by
    intro j before here
    rw [changed.get]
    split
    · rename_i isId
      rw [isId, held] at here
      obtain rfl := Option.some.inj here
      exact ⟨new, rfl, same.symm⟩
    · exact ⟨before, here, rfl⟩
  refine ⟨changed.sound, ⟨h.beside.arena, h.beside.aligned⟩, h.map, h.removed, fun net j on => ?_,
    fun c j on => ?_, fun j island here => ?_, fun j island here c member => ?_, fun j island fine here => ?_,
    h.anchored, h.reached, h.coarse, h.exact⟩
  · obtain ⟨before, here⟩ := h.alive net j on
    obtain ⟨island, here', -⟩ := forth j before here
    exact ⟨island, here'⟩
  · obtain ⟨before, here, member⟩ := h.named c j on
    obtain ⟨island, here', components⟩ := forth j before here
    exact ⟨island, here', components ▸ member⟩
  · obtain ⟨before, here', components⟩ := back j island here
    exact components ▸ h.nodup j before here'
  · obtain ⟨before, here', components⟩ := back j island here
    exact h.members j before here' c (components ▸ member)
  · obtain ⟨before, here', components⟩ := back j island here
    exact components ▸ h.nonempty j before fine here'

end DerivedTopology

end Hynergy
