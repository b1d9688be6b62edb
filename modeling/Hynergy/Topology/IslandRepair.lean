import Hynergy.Topology.NetRepair

/-!
# Repairing an island

The nets and components of a damaged island are walked; the largest piece with a component
keeps the island, every other such piece becomes an island of its own, and a net that reaches
no component leaves it.
-/

namespace Hynergy

open Lib Relation

variable {F : Type}

/-- The nets and components of a piece. -/
def IslandComponent.vertices (self : IslandComponent) : List IslandVertex :=
  self.nets.map .net ++ self.components.map .component

@[simp] theorem IslandComponent.net_mem_vertices {piece : IslandComponent} {id : NetId} :
    IslandVertex.net id ∈ piece.vertices ↔ id ∈ piece.nets := by
  simp [IslandComponent.vertices]

@[simp] theorem IslandComponent.component_mem_vertices {piece : IslandComponent} {c : DeviceComponent} :
    IslandVertex.component c ∈ piece.vertices ↔ c ∈ piece.components := by
  simp [IslandComponent.vertices]

/-- The vertices of a walk, nets and components apart. -/
theorem IslandComponent.mem_vertices_of (l : List IslandVertex) (v : IslandVertex) :
    v ∈ IslandComponent.vertices ⟨l.filterMap IslandVertex.asNet, l.filterMap IslandVertex.asComponent⟩ ↔
      v ∈ l := by
  cases v with
  | net id =>
    rw [net_mem_vertices, List.mem_filterMap]
    constructor
    · intro there
      obtain ⟨u, member, at'⟩ := there
      cases u with
      | net other => exact Option.some.inj at' ▸ member
      | component c => simp [IslandVertex.asNet] at at'
    · exact fun member => ⟨_, member, rfl⟩
  | component c =>
    rw [component_mem_vertices, List.mem_filterMap]
    constructor
    · intro there
      obtain ⟨u, member, at'⟩ := there
      cases u with
      | net other => simp [IslandVertex.asComponent] at at'
      | component d => exact Option.some.inj at' ▸ member
    · exact fun member => ⟨_, member, rfl⟩

theorem IslandComponent.nodup_nets_of {l : List IslandVertex} (nodup : l.Nodup) :
    (l.filterMap IslandVertex.asNet).Nodup := by
  apply List.Nodup.filterMap _ nodup
  intro u v id hu hv
  cases u with
  | net other =>
    cases v with
    | net another =>
      simp only [IslandVertex.asNet, Option.mem_def, Option.some.injEq] at hu hv
      rw [hu, hv]
    | component c => simp [IslandVertex.asNet] at hv
  | component c => simp [IslandVertex.asNet] at hu

theorem IslandComponent.nodup_components_of {l : List IslandVertex} (nodup : l.Nodup) :
    (l.filterMap IslandVertex.asComponent).Nodup := by
  apply List.Nodup.filterMap _ nodup
  intro u v c hu hv
  cases u with
  | net other => simp [IslandVertex.asComponent] at hu
  | component d =>
    cases v with
    | net other => simp [IslandVertex.asComponent] at hv
    | component e =>
      simp only [IslandVertex.asComponent, Option.mem_def, Option.some.injEq] at hu hv
      rw [hu, hv]

/-- A piece lists its nets and components once where they do not repeat. -/
theorem IslandComponent.nodup_vertices {piece : IslandComponent} :
    piece.vertices.Nodup ↔ piece.nets.Nodup ∧ piece.components.Nodup := by
  have nets : (piece.nets.map IslandVertex.net).Nodup ↔ piece.nets.Nodup :=
    List.nodup_map_iff fun a b same => IslandVertex.net.inj same
  have components : (piece.components.map IslandVertex.component).Nodup ↔ piece.components.Nodup :=
    List.nodup_map_iff fun a b same => IslandVertex.component.inj same
  unfold vertices
  rw [List.nodup_append', nets, components]
  refine and_congr_right fun _ => and_iff_left fun v first second => ?_
  obtain ⟨id, -, rfl⟩ := List.mem_map.mp first
  obtain ⟨c, -, same⟩ := List.mem_map.mp second
  cases same

namespace DerivedTopology

variable {registry : DefinitionRegistry F} {network : Network F} {self next : DerivedTopology}

/-! ### Marks -/

/-- The component slots of the chunks. -/
def componentSlots (self : DerivedTopology) : List Nat :=
  self.deviceChunks.map fun chunk => chunk.rowCount * chunk.partitionCount

def vertexSeen (topology : DerivedTopology) (network : Network F) (scratch : TraversalScratch) :
    IslandVertex → Prop
  | .net id => scratch.netSeen[id.index]? = some true
  | .component c => (∃ island, topology.islandOf network c = some island) ∧
      ∃ place, topology.componentStorageIndex network c = some place ∧
        TraversalScratch.Marked scratch.componentSeen place.1 place.2

/-- There is a mark for every net slot and every component slot. -/
structure MarksFit (topology : DerivedTopology) (scratch : TraversalScratch) : Prop where
  sound : scratch.Sound
  nets : topology.nets.slotCount ≤ scratch.netSeen.length
  components : TraversalScratch.Holds scratch.componentSeen topology.componentSlots

theorem visitVertex_marking (beside : Beside registry network self) {dom : IslandVertex → Prop}
    (nets : ∀ id, dom (.net id) → id.index < self.nets.slotCount)
    (components : ∀ c, dom (.component c) → ∃ island, self.islandOf network c = some island) :
    Marking (visitVertex self network) dom (MarksFit self) (self.vertexSeen network) := by
  constructor
  · intro scratch v fit hv new
    cases v with
    | net id =>
      obtain ⟨seen, touched, run, ok, length, marks⟩ := TraversalScratch.visitMark_fresh fit.sound.nets
        (Nat.lt_of_lt_of_le (nets id hv) fit.nets) new
      refine ⟨{ scratch with netSeen := seen, touchedNets := touched }, ?_,
        ⟨⟨fit.sound.wires, ok, fit.sound.words⟩, by rw [length]; exact fit.nets, fit.components⟩, fun u => ?_⟩
      · unfold visitVertex TraversalScratch.visitNet
        dsimp only
        rw [bind_of_eq_some run]
      · cases u with
        | net other =>
          refine (marks other.index).trans ?_
          rw [NonZeroId.index_inj, IslandVertex.net.injEq]
          rfl
        | component c => simp [vertexSeen]
    | component c =>
      obtain ⟨island, live⟩ := components c hv
      obtain ⟨loc, chunk, located, hc, inside, narrow, place⟩ := beside.componentStorageIndex_eq live
      have slot : self.componentSlots[loc.1]? = some (chunk.rowCount * chunk.partitionCount) := by
        rw [componentSlots, List.getElem?_map, hc, Option.map_some]
      obtain ⟨word, read⟩ := fit.components loc.1 _ slot _ (mul_add_lt chunk.partitionCount inside narrow)
      obtain ⟨next, run, ok, sameNets, words, marks⟩ := TraversalScratch.visitComponent_fresh fit.sound read
        fun marked => new ⟨⟨island, live⟩, _, place, marked⟩
      refine ⟨next, ?_, ⟨ok, by rw [sameNets]; exact fit.nets, ?_⟩, fun u => ?_⟩
      · unfold visitVertex
        dsimp only
        rw [bind_of_eq_some place]
        exact run
      · intro c' n slots i hi
        apply Option.isSome_iff_exists.mp
        rw [words]
        exact Option.isSome_iff_exists.mpr (fit.components c' n slots i hi)
      · cases u with
        | net other => simp [vertexSeen, sameNets]
        | component d =>
          rw [IslandVertex.component.injEq]
          constructor
          · intro seen
            obtain ⟨⟨island', live'⟩, place', at', marked⟩ := seen
            rcases (marks _ _).mp marked with ⟨first, second⟩ | old
            · refine Or.inl (beside.storageIndex_inj live' live ?_)
              rw [at', place]
              exact congrArg some (Prod.ext first second)
            · exact Or.inr ⟨⟨island', live'⟩, place', at', old⟩
          · intro either
            rcases either with same | seen
            · subst same
              exact ⟨⟨island, live⟩, _, place, (marks _ _).mpr (Or.inl ⟨rfl, rfl⟩)⟩
            · obtain ⟨live', place', at', marked⟩ := seen
              exact ⟨live', place', at', (marks _ _).mpr (Or.inr marked)⟩
  · intro scratch v fit hv old
    cases v with
    | net id =>
      unfold visitVertex TraversalScratch.visitNet
      dsimp only
      rw [bind_of_eq_some (TraversalScratch.visitMark_again old)]
    | component c =>
      obtain ⟨-, place, at', marked⟩ := old
      unfold visitVertex
      dsimp only
      rw [bind_of_eq_some at']
      exact TraversalScratch.visitComponent_again marked

/-! ### The pieces of an island -/

/-- The pieces of an island are the connected classes of its nets and components. -/
structure IslandPieces (network : Network F) (topology : DerivedTopology) (id : IslandId)
    (pieces : List IslandComponent) : Prop where
  nodup : ∀ piece ∈ pieces, piece.components.Nodup
  component : ∀ piece ∈ pieces, ∃ v, topology.islandLabel network v = some id ∧
    ∀ u, u ∈ piece.vertices ↔ ReflTransGen topology.Attached v u
  disjoint : pieces.Pairwise fun p q => ∀ u ∈ p.vertices, u ∉ q.vertices
  covers : ∀ u, topology.islandLabel network u = some id → ∃ piece ∈ pieces, u ∈ piece.vertices

/-- What the walk over an island rests on: islands may be damaged, but no attachment leads from one
island to another, and the affected nets are in this one. -/
structure IslandWalkable (registry : DefinitionRegistry F) (network : Network F) (topology : DerivedTopology)
    (id : IslandId) (affected : List NetId) : Prop where
  consistent : network.Consistent registry
  partitioned : registry.Partitioned
  nets : NetsSound registry network topology
  islands : IslandsOk (fun _ => True) registry network topology
  live : ∃ island, topology.islands.get id = some island
  affected : ∀ net ∈ affected, topology.islandOfNet net = some id

variable [F64 F]

/-- The walks over an island find the same pieces with every scratch: what is attached to its
components and to the affected nets. -/
theorem islandComponents_walks {id : IslandId} {island : IslandTopology} {affected : List NetId}
    (walkable : IslandWalkable registry network self id affected) (found : self.islands.get id = some island) :
    ∃ pieces, Pieces self.Attached (fun _ => False)
        (island.components.map IslandVertex.component ++ affected.map IslandVertex.net)
        (pieces.map IslandComponent.vertices) ∧
      ∀ scratch : TraversalScratch, scratch.Sound → ∃ scratch',
        islandComponents self registry network scratch id affected = some (pieces, scratch') ∧
          scratch'.Sound := by
  obtain ⟨consistent, partitioned, nets, h, -, starts⟩ := walkable
  let dom : IslandVertex → Prop := fun v => self.islandLabel network v = some id
  have closed : ∀ u v, dom u → self.Attached u v → dom v := fun u v hu edge =>
    (h.coarse u v edge).symm.trans hu
  -- the neighbour lists give the attachments
  have neighbours : ∀ u, dom u → ∃ ns, vertexNeighbors self registry network u = some ns ∧
      ∀ v, v ∈ ns ↔ self.Attached u v := by
    intro u hu
    cases u with
    | net net =>
      obtain ⟨value, held⟩ := h.live_of_islandOfNet hu
      obtain ⟨ns, read, member⟩ := @vertexNeighbors_net F registry network self _ net value held
      refine ⟨ns, read, fun v => (member v).trans ?_⟩
      cases v with
      | net other => simp [Attached]
      | component c => simp [Attached]
    | component c =>
      obtain ⟨row, held⟩ := h.beside.record_of_islandOf hu
      obtain ⟨ns, read, member⟩ := vertexNeighbors_component consistent partitioned nets
        (fun _ => not_false) held
      refine ⟨ns, read, fun v => (member v).trans ?_⟩
      cases v with
      | net other => simp [Attached]
      | component c => simp [Attached]
  let vertices : List IslandVertex := island.components.map .component ++
    (self.nets.denseIds.filter fun net => self.islandOfNet net = some id).map .net
  have listed : ∀ v, dom v → v ∈ vertices := by
    intro v hv
    cases v with
    | net net =>
      obtain ⟨value, held⟩ := h.live_of_islandOfNet hv
      exact List.mem_append_right _ (List.mem_map.mpr ⟨net, List.mem_filter.mpr
        ⟨nets.sound.mem_denseIds.mpr ⟨value, held⟩, decide_eq_true hv⟩, rfl⟩)
    | component c =>
      obtain ⟨island', found', member⟩ := h.named c id hv
      obtain rfl := Option.some.inj (found.symm.trans found')
      exact List.mem_append_left _ (List.mem_map.mpr ⟨c, member, rfl⟩)
  have fuel : vertices.length ≤ island.components.length + self.nets.slotCount := by
    have few := List.length_filter_le (fun net => decide (self.islandOfNet net = some id)) self.nets.denseIds
    have packed := nets.sound.packed
    simp only [vertices, List.length_append, List.length_map, DenseIdStore.slotCount]
    omega
  have inside : ∀ v ∈ island.components.map IslandVertex.component ++ affected.map IslandVertex.net, dom v := by
    intro v member
    rcases List.mem_append.mp member with member | member
    · obtain ⟨c, hc, rfl⟩ := List.mem_map.mp member
      exact h.members id island found c hc
    · obtain ⟨net, hn, rfl⟩ := List.mem_map.mp member
      exact starts net hn
  obtain ⟨begun, begin', soundBegun, room, holds, clearNets, clearComponents⟩ :=
    TraversalScratch.beginIslandTraversal_spec TraversalScratch.sound_empty self.nets.slotCount self.componentSlots
  have blank : ∀ v, ¬ self.vertexSeen network begun v := by
    intro v seen
    cases v with
    | net net => exact clearNets net.index seen
    | component c =>
      obtain ⟨-, place, -, marked⟩ := seen
      exact clearComponents _ _ marked
  obtain ⟨done, pieces, walks, split⟩ :=
    components_of_edges (visitVertex_marking h.beside (fun net hv => by
        obtain ⟨value, held⟩ := h.live_of_islandOfNet hv
        exact nets.sound.index_lt held) fun c hv => ⟨id, hv⟩)
      listed neighbours closed (fun _ _ _ edge => edge.symm) fuel inside ⟨soundBegun, room, holds⟩ blank
  let found' : List IslandComponent := pieces.map fun piece =>
    ⟨piece.filterMap IslandVertex.asNet, piece.filterMap IslandVertex.asComponent⟩
  have run : islandComponents self registry network {} id affected = some (found', done) := by
    unfold islandComponents
    rw [show (self.deviceChunks.map fun chunk => chunk.rowCount * chunk.partitionCount) =
      self.componentSlots from rfl, bind_of_eq_some begin', bind_of_eq_some found, bind_of_eq_some walks]
  refine ⟨found', ?_, fun scratch sound => ?_⟩
  · rw [List.map_map]
    exact split.relisted IslandComponent.mem_vertices_of fun piece hp => IslandComponent.nodup_vertices.mpr
      ⟨IslandComponent.nodup_nets_of (split.nodup piece hp),
        IslandComponent.nodup_components_of (split.nodup piece hp)⟩
  · obtain ⟨scratch', run', after⟩ := TraversalScratch.islandComponents_follows sound.roomier_empty run
    exact ⟨scratch', run', after.right⟩

theorem islandComponents_spec {bad : IslandId → Prop} (consistent : network.Consistent registry)
    (partitioned : registry.Partitioned) (nets : NetsSound registry network self)
    (h : IslandsOk bad registry network self) {id : IslandId} {island : IslandTopology}
    (found : self.islands.get id = some island) {affected : List NetId}
    (starts : ∀ net ∈ affected, self.islandOfNet net = some id)
    (anchored : ∀ net, self.islandOfNet net = some id → (∃ c, self.Touches net c) ∨ net ∈ affected)
    {scratch : TraversalScratch} (sound : scratch.Sound) :
    ∃ pieces scratch', islandComponents self registry network scratch id affected =
        some (pieces, scratch') ∧ scratch'.Sound ∧ IslandPieces network self id pieces := by
  have walkable : IslandWalkable registry network self id affected :=
    ⟨consistent, partitioned, nets, h.mono fun _ _ => trivial, ⟨island, found⟩, starts⟩
  obtain ⟨pieces, split, run⟩ := islandComponents_walks walkable found
  obtain ⟨scratch', walks, sound'⟩ := run scratch sound
  have inside : ∀ v ∈ island.components.map IslandVertex.component ++ affected.map IslandVertex.net,
      self.islandLabel network v = some id := by
    intro v member
    rcases List.mem_append.mp member with member | member
    · obtain ⟨c, hc, rfl⟩ := List.mem_map.mp member
      exact h.members id island found c hc
    · obtain ⟨net, hn, rfl⟩ := List.mem_map.mp member
      exact starts net hn
  refine ⟨pieces, scratch', walks, sound', fun piece hp => ?_, fun piece hp => ?_, ?_, fun u hu => ?_⟩
  · exact (IslandComponent.nodup_vertices.mp (split.nodup _ (List.mem_map.mpr ⟨piece, hp, rfl⟩))).2
  · obtain ⟨v, start, reach⟩ := split.component _ (List.mem_map.mpr ⟨piece, hp, rfl⟩)
    exact ⟨v, inside v start, reach⟩
  · exact List.pairwise_map.mp split.disjoint
  · -- a net of the island touches a component of it or is among the affected ones
    have start : ∃ s ∈ island.components.map IslandVertex.component ++ affected.map IslandVertex.net,
        ReflTransGen self.Attached s u := by
      cases u with
      | component c =>
        obtain ⟨island', found', member⟩ := h.named c id hu
        obtain rfl := Option.some.inj (found.symm.trans found')
        exact ⟨_, List.mem_append_left _ (List.mem_map.mpr ⟨c, member, rfl⟩), .refl⟩
      | net net =>
        rcases anchored net hu with ⟨c, touches⟩ | member
        · have edge : self.Attached (.component c) (.net net) := touches
          obtain ⟨island', found', member⟩ := h.named c id ((h.coarse _ _ edge).trans hu)
          obtain rfl := Option.some.inj (found.symm.trans found')
          exact ⟨_, List.mem_append_left _ (List.mem_map.mpr ⟨c, member, rfl⟩), .single edge⟩
        · exact ⟨_, List.mem_append_right _ (List.mem_map.mpr ⟨net, member, rfl⟩), .refl⟩
    obtain ⟨s, hs, path⟩ := start
    rcases split.covers s hs with old | ⟨walked, hp, member⟩
    · exact old.elim
    · obtain ⟨piece, hp', rfl⟩ := List.mem_map.mp hp
      obtain ⟨v, -, reach⟩ := split.component _ hp
      exact ⟨piece, hp', (reach u).mpr (((reach s).mp member).trans path)⟩

/-! ### Pieces without components -/

omit [F64 F] in
/-- Net `id` lies in a piece without components. -/
def Dropped (pieces : List IslandComponent) (id : NetId) : Prop :=
  ∃ piece ∈ pieces, piece.components = [] ∧ id ∈ piece.nets

omit [F64 F] in
/-- The pieces with components remain, in some order, and the nets of the others have no
island. -/
structure PiecesDropped (pieces kept : List IslandComponent) (before after : DerivedTopology) : Prop where
  perm : kept.Perm (pieces.filter fun piece => piece.components ≠ [])
  length : after.netIslandMap.length = before.netIslandMap.length
  dropped : ∀ id, Dropped pieces id → after.islandOfNet id = none
  stays : ∀ id, ¬ Dropped pieces id → after.islandOfNet id = before.islandOfNet id
  rest : after = { before with netIslandMap := after.netIslandMap }

omit [F64 F] in
theorem piecesDropped_of_nonempty {pieces : List IslandComponent}
    (all : ∀ (k : Nat) piece, pieces[k]? = some piece → piece.components ≠ []) (self : DerivedTopology) :
    PiecesDropped pieces pieces self self := by
  have none' : ∀ piece ∈ pieces, piece.components ≠ [] := by
    intro piece member
    obtain ⟨k, read⟩ := List.mem_iff_getElem?.mp member
    exact all k piece read
  refine ⟨?_, rfl, fun id gone => ?_, fun _ _ => rfl, rfl⟩
  · rw [List.filter_eq_self.mpr fun piece member => decide_eq_true (none' piece member)]
  · obtain ⟨piece, member, empty, -⟩ := gone
    exact absurd empty (none' piece member)

omit [F64 F] in
theorem dropPieces_go (fuel index : Nat) {self : DerivedTopology} {pieces : List IslandComponent}
    (enough : pieces.length ≤ fuel + index)
    (passed : ∀ (k : Nat) piece, k < index → pieces[k]? = some piece → piece.components ≠ [])
    (inside : ∀ piece ∈ pieces, ∀ net ∈ piece.nets, net.index < self.netIslandMap.length) :
    ∃ kept next, dropPieces.go fuel index self pieces = some (kept, next) ∧
      PiecesDropped pieces kept self next := by
  induction fuel generalizing index self pieces with
  | zero =>
    rw [Nat.zero_add] at enough
    unfold dropPieces.go
    rw [if_neg (Nat.not_lt.mpr enough)]
    exact ⟨pieces, self, rfl, piecesDropped_of_nonempty (fun k piece read => passed k piece
      (Nat.lt_of_lt_of_le (List.getElem?_eq_some_iff.mp read).1 enough) read) self⟩
  | succ fuel ih =>
    unfold dropPieces.go
    cases read : pieces[index]? with
    | none =>
      have beyond := List.getElem?_eq_none_iff.mp read
      exact ⟨pieces, self, rfl, piecesDropped_of_nonempty (fun k piece read => passed k piece
        (Nat.lt_of_lt_of_le (List.getElem?_eq_some_iff.mp read).1 beyond) read) self⟩
    | some piece =>
      dsimp only
      have bound := (List.getElem?_eq_some_iff.mp read).1
      by_cases empty : piece.components = []
      swap
      · -- the piece stays
        rw [if_pos empty]
        refine ih (index + 1) (by omega) (fun k other below at' => ?_) inside
        rcases Nat.lt_succ_iff_lt_or_eq.mp below with below | same
        · exact passed k other below at'
        · subst same
          rwa [Option.some.inj (read.symm.trans at')] at empty
      · -- the piece goes, and its nets lose their island
        rw [if_neg (not_not_intro empty)]
        have perm := swapRemove_perm read
        obtain ⟨map, set, length, entries⟩ :=
          setNetIslands_spec piece.nets none (inside piece (List.mem_of_getElem? read))
        obtain ⟨kept, next, run, dropped⟩ := @ih index { self with netIslandMap := map }
          (swapRemove pieces index) (by rw [length_swapRemove]; omega)
          (fun k other below at' => by
            rw [getElem?_swapRemove bound] at at'
            split at at'
            · rw [if_neg (Nat.ne_of_lt below)] at at'
              exact passed k other below at'
            · simp at at')
          (fun other member net there => by
            rw [length]
            exact inside other (mem_of_mem_swapRemove member) net there)
        have split : ∀ id, Dropped pieces id ↔ id ∈ piece.nets ∨ Dropped (swapRemove pieces index) id := by
          intro id
          simp only [Dropped, perm.mem_iff, List.mem_cons, exists_eq_or_imp, empty, true_and]
        have entry : ∀ id, islandOfNet { self with netIslandMap := map } id =
            if id ∈ piece.nets then none else self.islandOfNet id := entries
        refine ⟨kept, next, by rw [bind_of_eq_some set]; exact run, dropped.perm.trans ?_,
          dropped.length.trans length, fun id gone => ?_, fun id stays => ?_, ?_⟩
        · refine List.Perm.trans ?_ (perm.filter _).symm
          rw [List.filter_cons_of_neg (by simpa using empty)]
        · by_cases there : Dropped (swapRemove pieces index) id
          · exact dropped.dropped id there
          · rw [dropped.stays id there, entry, if_pos (((split id).mp gone).resolve_right there)]
        · rw [split, not_or] at stays
          rw [dropped.stays id stays.2, entry, if_neg stays.1]
        · exact dropped.rest

omit [F64 F] in
theorem dropPieces_spec (id : IslandId) {pieces : List IslandComponent}
    (inside : ∀ piece ∈ pieces, ∀ net ∈ piece.nets, net.index < self.netIslandMap.length) :
    ∃ kept next, dropPieces id self pieces = some (kept, next) ∧
      PiecesDropped pieces kept self next :=
  dropPieces_go pieces.length 0 (Nat.le_refl _) (fun k _ below => absurd below (Nat.not_lt_zero k)) inside

/-! ### The pieces get their islands -/

omit [F64 F] in
/-- `pairs` are the pieces of island `id` with the islands they are in now. -/
structure IslandSplit (registry : DefinitionRegistry F) (network : Network F) (id : IslandId)
    (before after : DerivedTopology) (pairs : List (IslandId × IslandComponent)) : Prop where
  nodup : (pairs.map Prod.fst).Nodup
  kept : id ∈ pairs.map Prod.fst
  fresh : ∀ p ∈ pairs, p.1 = id ∨ before.islands.slotCount ≤ p.1.index
  sound : after.islands.Sound
  slots : after.islands.slotCount + 1 = before.islands.slotCount + pairs.length
  islands : ∀ p ∈ pairs, ∃ revision, after.islands.get p.1 = some ⟨p.2.components, revision⟩
  others : ∀ j, j ∉ pairs.map Prod.fst → after.islands.get j = before.islands.get j
  beside : Beside registry network after
  labels : ∀ p ∈ pairs, ∀ v ∈ p.2.vertices, after.islandLabel network v = some p.1
  otherLabels : ∀ v, (∀ p ∈ pairs, v ∉ p.2.vertices) →
    after.islandLabel network v = before.islandLabel network v
  netMap : after.netIslandMap.length = before.netIslandMap.length
  nets : after.nets = before.nets
  wireNetMap : after.wireNetMap = before.wireNetMap
  invalidation : after.invalidation =
    (pairs.map Prod.fst).foldl WorldInvalidation.markTopologyDirty before.invalidation

omit [F64 F] in
theorem splitPiece_step {id : IslandId} {before self : DerivedTopology}
    {pairs : List (IslandId × IslandComponent)} (h : IslandSplit registry network id before self pairs)
    {piece : IslandComponent} (inside : ∀ net ∈ piece.nets, net.index < before.netIslandMap.length)
    (live : ∀ c ∈ piece.components, ∃ old, before.islandOf network c = some old)
    (apart : ∀ p ∈ pairs, ∀ v ∈ p.2.vertices, v ∉ piece.vertices) :
    Returns (self.islands.unused = 0) (splitPiece network self piece) fun next =>
      0 < self.islands.unused ∧ ∃ new, IslandSplit registry network id before next (pairs ++ [(new, piece)]) := by
  unfold splitPiece
  refine (DenseIdStore.insert_returns h.sound _).bind fun result inserted => ?_
  obtain ⟨new, islands⟩ := result
  obtain ⟨room, grown⟩ := inserted
  dsimp only at grown ⊢
  obtain ⟨map, setNets, length, entries⟩ := @setNetIslands_spec piece.nets (some new)
    { self with islands } fun net member => by
      rw [show ({ self with islands } : DerivedTopology).netIslandMap = self.netIslandMap from rfl, h.netMap]
      exact inside net member
  have beside : Beside registry network { self with islands, netIslandMap := map } :=
    ⟨h.beside.arena, h.beside.aligned⟩
  obtain ⟨chunks, setComponents, beside', found⟩ := beside.setComponentIslands_spec piece.components new
    fun c member => by
      have same := h.otherLabels (.component c) fun p hp there =>
        apart p hp _ there (IslandComponent.component_mem_vertices.mpr member)
      obtain ⟨old, held⟩ := live c member
      exact ⟨old, (show self.islandOf network c = before.islandOf network c from same).trans held⟩
  refine Returns.bind_some setNets (Returns.bind_some setComponents ⟨room, new, ?_⟩)
  have label : ∀ v, islandLabel (({ self with islands, netIslandMap := map, deviceChunks := chunks } :
      DerivedTopology).markTopologyDirty new) network v =
      if v ∈ piece.vertices then some new else self.islandLabel network v := by
    intro v
    cases v with
    | net net =>
      simp only [IslandComponent.net_mem_vertices]
      exact entries net
    | component c =>
      simp only [IslandComponent.component_mem_vertices]
      exact found c
  have newSlot : before.islands.slotCount ≤ new.index := by
    have count := h.slots
    have some' := List.length_pos_of_mem h.kept
    rw [List.length_map] at some'
    rw [grown.slot]
    omega
  have unknown : new ∉ pairs.map Prod.fst := by
    intro member
    obtain ⟨p, hp, same⟩ := List.mem_map.mp member
    obtain ⟨revision, held⟩ := h.islands p hp
    rw [same, grown.fresh] at held
    simp at held
  have keys : (pairs ++ [(new, piece)]).map Prod.fst = pairs.map Prod.fst ++ [new] := by
    rw [List.map_append, List.map_singleton]
  constructor
  · rw [keys]
    exact List.nodup_append.mpr ⟨h.nodup, List.nodup_singleton _, fun a ha b hb same =>
      unknown (List.mem_singleton.mp hb ▸ same ▸ ha)⟩
  · rw [keys]
    exact List.mem_append_left _ h.kept
  · intro p hp
    rcases List.mem_append.mp hp with hp | hp
    · exact h.fresh p hp
    · rw [List.mem_singleton.mp hp]
      exact Or.inr newSlot
  · exact grown.sound
  · rw [List.length_append, List.length_singleton, ← Nat.add_assoc, ← h.slots]
    exact congrArg (· + 1) grown.slots
  · intro p hp
    rcases List.mem_append.mp hp with hp | hp
    · obtain ⟨revision, held⟩ := h.islands p hp
      refine ⟨revision, (grown.get p.1).trans ?_⟩
      rw [if_neg fun same : p.1 = new => unknown (List.mem_map.mpr ⟨p, hp, same⟩), held]
    · rw [List.mem_singleton.mp hp]
      exact ⟨0, (grown.get new).trans (if_pos rfl)⟩
  · intro j missing
    rw [keys, List.mem_append, List.mem_singleton, not_or] at missing
    exact (grown.get j).trans ((if_neg missing.2).trans (h.others j missing.1))
  · exact ⟨beside'.arena, beside'.aligned⟩
  · intro p hp v member
    rw [label]
    rcases List.mem_append.mp hp with hp | hp
    · rw [if_neg (apart p hp v member)]
      exact h.labels p hp v member
    · rw [List.mem_singleton.mp hp] at member ⊢
      rw [if_pos member]
  · intro v missing
    rw [label, if_neg (missing _ (List.mem_append_right _ (List.mem_singleton.mpr rfl)))]
    exact h.otherLabels v fun p hp => missing p (List.mem_append_left _ hp)
  · exact length.trans h.netMap
  · exact h.nets
  · exact h.wireNetMap
  · rw [keys, List.foldl_append, ← h.invalidation]
    rfl

omit [F64 F] in
theorem splitPieces {id : IslandId} {before self : DerivedTopology} {kept : IslandComponent}
    (start : IslandSplit registry network id before self [(id, kept)]) (pieces : List IslandComponent)
    (inside : ∀ piece ∈ pieces, ∀ net ∈ piece.nets, net.index < before.netIslandMap.length)
    (live : ∀ piece ∈ pieces, ∀ c ∈ piece.components, ∃ old, before.islandOf network c = some old)
    (disjoint : (kept :: pieces).Pairwise fun p q => ∀ v ∈ p.vertices, v ∉ q.vertices) :
    Returns (before.islands.unused < pieces.length)
      (pieces.foldlM (splitPiece network) self) fun next =>
        pieces.length ≤ before.islands.unused ∧ ∃ pairs, pairs.map Prod.snd = kept :: pieces ∧
          IslandSplit registry network id before next pairs := by
  apply Returns.foldlM fun done next => done.length ≤ before.islands.unused ∧
    ∃ pairs, pairs.map Prod.snd = kept :: done ∧ IslandSplit registry network id before next pairs
  · exact ⟨Nat.zero_le _, [(id, kept)], rfl, start⟩
  · intro done piece rest self split inv
    obtain ⟨-, pairs, values, h⟩ := inv
    have slots := h.slots
    have length := congrArg List.length values
    simp only [List.length_map, List.length_cons] at length
    have member : piece ∈ pieces := by
      rw [split]
      exact List.mem_append_right _ List.mem_cons_self
    have step := splitPiece_step h (inside piece member) (live piece member) (by
        intro p hp v there
        have hp' : p.2 ∈ kept :: done := values ▸ List.mem_map.mpr ⟨p, hp, rfl⟩
        rw [split, ← List.cons_append] at disjoint
        exact (List.pairwise_append.mp disjoint).2.2 p.2 hp' piece List.mem_cons_self v there)
    refine step.mono (fun full => ?_) ?_
    · have total := congrArg List.length split
      simp only [List.length_cons, List.length_append] at total
      unfold DenseIdStore.unused at full ⊢
      omega
    · intro next after
      obtain ⟨room, new, h'⟩ := after
      refine ⟨?_, pairs ++ [(new, piece)], by rw [List.map_append, values]; rfl, h'⟩
      rw [List.length_append, List.length_singleton]
      unfold DenseIdStore.unused at room ⊢
      omega

/-! ### The repaired island -/

omit [F64 F] in
/-- Island `id` was taken apart: its pieces with components are in the islands `pairs` names,
its other nets in none. -/
structure Repieced (registry : DefinitionRegistry F) (network : Network F) (id : IslandId)
    (before after : DerivedTopology) (pairs : List (IslandId × IslandComponent)) : Prop where
  nodup : (pairs.map Prod.fst).Nodup
  fresh : ∀ p ∈ pairs, p.1 = id ∨ before.islands.slotCount ≤ p.1.index
  sound : after.islands.Sound
  beside : Beside registry network after
  netMap : after.netIslandMap.length = before.netIslandMap.length
  nets : after.nets = before.nets
  islands : ∀ p ∈ pairs, ∃ revision, after.islands.get p.1 = some ⟨p.2.components, revision⟩
  others : ∀ j, j ∉ pairs.map Prod.fst →
    after.islands.get j = if j = id then none else before.islands.get j
  labels : ∀ p ∈ pairs, ∀ v ∈ p.2.vertices, after.islandLabel network v = some p.1
  outside : ∀ v, before.islandLabel network v ≠ some id →
    after.islandLabel network v = before.islandLabel network v
  dropped : ∀ v, before.islandLabel network v = some id → (∀ p ∈ pairs, v ∉ p.2.vertices) →
    after.islandLabel network v = none

omit [F64 F] in
theorem Repieced.ok {bad : IslandId → Prop} {id : IslandId} {pieces : List IslandComponent}
    {pairs : List (IslandId × IslandComponent)} (h : IslandsOk bad registry network self)
    (split : IslandPieces network self id pieces)
    (perm : (pieces.filter fun piece => piece.components ≠ []).Perm (pairs.map Prod.snd))
    (s : Repieced registry network id self next pairs) :
    IslandsOk (fun j => bad j ∧ j ≠ id) registry network next := by
  have same : next.Attached = self.Attached := by
    funext u v
    cases u <;> cases v <;> simp only [Attached, Touches, s.nets]
  have keys : ∀ j, j ∈ pairs.map Prod.fst → ∃ piece, (j, piece) ∈ pairs := by
    intro j member
    obtain ⟨p, hp, rfl⟩ := List.mem_map.mp member
    exact ⟨p.2, hp⟩
  have pieceOf : ∀ p ∈ pairs, p.2 ∈ pieces ∧ p.2.components ≠ [] := by
    intro p hp
    obtain ⟨member, some'⟩ := List.mem_filter.mp (perm.mem_iff.mpr (List.mem_map.mpr ⟨p, hp, rfl⟩))
    exact ⟨member, of_decide_eq_true some'⟩
  have pairOf : ∀ piece ∈ pieces, piece.components ≠ [] → ∃ p ∈ pairs, p.2 = piece := by
    intro piece member some'
    exact List.mem_map.mp (perm.mem_iff.mp (List.mem_filter.mpr ⟨member, decide_eq_true some'⟩))
  have inPair : ∀ v, self.islandLabel network v = some id → next.islandLabel network v ≠ none →
      ∃ p ∈ pairs, v ∈ p.2.vertices := by
    intro v on here
    by_contra missing
    exact here (s.dropped v on fun p hp member => missing ⟨p, hp, member⟩)
  -- both ends of an attachment of the island are in one pair
  have attachedPair : ∀ u v, self.Attached u v → self.islandLabel network u = some id →
      ∃ p ∈ pairs, u ∈ p.2.vertices ∧ v ∈ p.2.vertices := by
    intro u v edge on
    obtain ⟨piece, member, hu⟩ := split.covers u on
    obtain ⟨start, -, reach⟩ := split.component piece member
    have hv : v ∈ piece.vertices := (reach v).mpr (((reach u).mp hu).tail edge)
    have some' : piece.components ≠ [] := by
      cases u with
      | component c => exact List.ne_nil_of_mem (IslandComponent.component_mem_vertices.mp hu)
      | net net =>
        cases v with
        | component c => exact List.ne_nil_of_mem (IslandComponent.component_mem_vertices.mp hv)
        | net other => exact edge.elim
    obtain ⟨p, hp, rfl⟩ := pairOf piece member some'
    exact ⟨p, hp, hu, hv⟩
  have unused : ∀ j, j ∈ pairs.map Prod.fst → j = id ∨ self.islands.get j = none := by
    intro j member
    obtain ⟨piece, hp⟩ := keys j member
    refine (s.fresh _ hp).imp_right fun new => ?_
    cases held : self.islands.get j with
    | none => rfl
    | some old => exact absurd (h.sound.index_lt held) (Nat.not_lt.mpr new)
  have aliveLabel : ∀ v j, self.islandLabel network v = some j →
      ∃ island, self.islands.get j = some island := by
    intro v j on
    cases v with
    | net net => exact h.alive net j on
    | component c =>
      obtain ⟨island, held, -⟩ := h.named c j on
      exact ⟨island, held⟩
  have keptId : ∀ v j, self.islandLabel network v = some j → j ≠ id → j ∉ pairs.map Prod.fst := by
    intro v j on different member
    obtain ⟨island, held⟩ := aliveLabel v j on
    rcases unused j member with same | free
    · exact different same
    · simp [held] at free
  have getKept : ∀ v j, self.islandLabel network v = some j → j ≠ id →
      next.islands.get j = self.islands.get j := by
    intro v j on different
    rw [s.others j (keptId v j on different), if_neg different]
  -- an island that is not one of the pairs is as before
  have getOther : ∀ j island, j ∉ pairs.map Prod.fst → next.islands.get j = some island →
      j ≠ id ∧ self.islands.get j = some island := by
    intro j island missing held
    rw [s.others j missing] at held
    split at held
    · simp at held
    · exact ⟨‹_›, held⟩
  have labelled : ∀ u v, self.Attached u v → next.islandLabel network u ≠ none := by
    intro u v edge
    by_cases on : self.islandLabel network u = some id
    · obtain ⟨p, hp, hu, -⟩ := attachedPair u v edge on
      rw [s.labels p hp u hu]
      simp
    · rw [s.outside u on]
      exact h.undirected.left edge
  obtain ⟨coarse, exact⟩ : Coarse self.Attached (next.islandLabel network) ∧
      ∀ k, ¬ ((∃ j, k = some j ∧ bad j) ∧ k ≠ some id) →
        Exact (next.InIsland network) self.Attached (next.islandLabel network) k := by
    have nodup : ((pairs.map fun p => (some p.1, p.2.vertices)).map Prod.fst).Nodup := by
      have := s.nodup.map (Option.some_injective IslandId)
      rw [List.map_map] at this ⊢
      exact this
    refine labels_of_pieces nodup ⟨fun edge => edge.symm, fun {u v} edge => labelled u v edge⟩ h.coarse
      ?_ ?_ ?_ ?_ (fun v _ off => s.outside v off) ?_
    · intro k other fine u v hu hv hk hk'
      cases k with
      | none =>
        -- a vertex that is in no island stays in none
        have := s.outside u (by rw [hk]; exact other)
        exact absurd (this.trans hk) hu
      | some j =>
        refine h.exact j (fun b => fine ⟨j, rfl, b⟩) u v ?_ ?_ hk hk'
        · exact fun none' => by simp [hk] at none'
        · exact fun none' => by simp [hk'] at none'
    · intro q hq
      obtain ⟨p, hp, rfl⟩ := List.mem_map.mp hq
      obtain ⟨v, -, reach⟩ := split.component p.2 (pieceOf p hp).1
      exact ⟨v, reach⟩
    · intro u hu on
      obtain ⟨p, hp, member⟩ := inPair u on hu
      exact ⟨_, List.mem_map.mpr ⟨p, hp, rfl⟩, member⟩
    · intro q hq u member
      obtain ⟨p, hp, rfl⟩ := List.mem_map.mp hq
      exact s.labels p hp u member
    · intro q hq
      obtain ⟨p, hp, rfl⟩ := List.mem_map.mp hq
      rcases s.fresh p hp with same | new
      · exact Or.inl (congrArg some same)
      · refine Or.inr fun u _ on => ?_
        obtain ⟨island, held⟩ := aliveLabel u p.1 on
        exact absurd (h.sound.index_lt held) (Nat.not_lt.mpr new)
  refine ⟨s.sound, s.beside, by rw [s.netMap, s.nets]; exact h.map, ?_, ?_, ?_, ?_, ?_, ?_, ?_, ?_,
    by rw [same]; exact coarse, fun j fine => by
      rw [same]
      refine exact (some j) fun both => fine ?_
      obtain ⟨⟨j', same', b⟩, different⟩ := both
      obtain rfl := Option.some.inj same'
      exact ⟨b, fun e => different (congrArg some e)⟩⟩
  · intro net gone
    rw [s.nets] at gone
    have off := h.removed net gone
    exact (s.outside (.net net) (by rw [islandLabel, off]; simp)).trans off
  · intro net j on
    by_cases old : self.islandOfNet net = some id
    · obtain ⟨p, hp, member⟩ := inPair (.net net) old (fun none' => by
        rw [islandLabel, on] at none'
        simp at none')
      obtain rfl := Option.some.inj ((s.labels p hp _ member).symm.trans on)
      obtain ⟨revision, held⟩ := s.islands p hp
      exact ⟨_, held⟩
    · have before : self.islandOfNet net = some j := (s.outside (.net net) old).symm.trans on
      rw [getKept (.net net) j before fun e => old (e ▸ before)]
      exact h.alive net j before
  · intro c j on
    by_cases old : self.islandOf network c = some id
    · obtain ⟨p, hp, member⟩ := inPair (.component c) old (fun none' => by
        rw [islandLabel, on] at none'
        simp at none')
      obtain rfl := Option.some.inj ((s.labels p hp _ member).symm.trans on)
      obtain ⟨revision, held⟩ := s.islands p hp
      exact ⟨_, held, IslandComponent.component_mem_vertices.mp member⟩
    · have before : self.islandOf network c = some j := (s.outside (.component c) old).symm.trans on
      rw [getKept (.component c) j before fun e => old (e ▸ before)]
      exact h.named c j before
  · intro j island held
    by_cases member : j ∈ pairs.map Prod.fst
    · obtain ⟨piece, hp⟩ := keys j member
      obtain ⟨revision, held'⟩ := s.islands _ hp
      obtain rfl := Option.some.inj (held'.symm.trans held)
      exact split.nodup piece (pieceOf _ hp).1
    · exact h.nodup j island (getOther j island member held).2
  · intro j island held c hc
    by_cases member : j ∈ pairs.map Prod.fst
    · obtain ⟨piece, hp⟩ := keys j member
      obtain ⟨revision, held'⟩ := s.islands _ hp
      obtain rfl := Option.some.inj (held'.symm.trans held)
      exact s.labels _ hp (.component c) (IslandComponent.component_mem_vertices.mpr hc)
    · obtain ⟨different, held'⟩ := getOther j island member held
      have before := h.members j island held' c hc
      exact (s.outside (.component c) fun on => different (Option.some.inj (before.symm.trans on))).trans before
  · intro j island fine held
    by_cases member : j ∈ pairs.map Prod.fst
    · obtain ⟨piece, hp⟩ := keys j member
      obtain ⟨revision, held'⟩ := s.islands _ hp
      obtain rfl := Option.some.inj (held'.symm.trans held)
      exact (pieceOf _ hp).2
    · obtain ⟨different, held'⟩ := getOther j island member held
      exact h.nonempty j island (fun b => fine ⟨b, different⟩) held'
  · intro net j fine on
    have touches : ∃ c, self.Touches net c := by
      by_cases old : self.islandOfNet net = some id
      · -- the net reaches a component of its piece, so a terminal is attached to it
        obtain ⟨p, hp, member⟩ := inPair (.net net) old (fun none' => by
          rw [islandLabel, on] at none'
          simp at none')
        obtain ⟨piece, some'⟩ := pieceOf p hp
        obtain ⟨c, hc⟩ := List.exists_mem_of_ne_nil _ some'
        obtain ⟨v, -, reach⟩ := split.component p.2 piece
        have path := (h.undirected.reach_symm ((reach _).mp member)).trans
          ((reach (.component c)).mp (IslandComponent.component_mem_vertices.mpr hc))
        rcases path.cases_head with same | ⟨w, edge, -⟩
        · simp at same
        · cases w with
          | net other => exact edge.elim
          | component d => exact ⟨d, edge⟩
      · have before : self.islandOfNet net = some j := (s.outside (.net net) old).symm.trans on
        exact h.anchored net j (fun b => fine ⟨b, fun e => old (e ▸ before)⟩) before
    obtain ⟨c, net', held, member⟩ := touches
    exact ⟨c, net', by rw [s.nets]; exact held, member⟩
  · intro net c touches
    have edge : self.Attached (.net net) (.component c) := by
      rw [← same]
      exact touches
    exact Option.ne_none_iff_exists'.mp (labelled _ _ edge)

omit [F64 F] in
/-- What a piece with components shares no net with one without. -/
theorem IslandPieces.not_dropped {id : IslandId} {pieces : List IslandComponent}
    (consistent : Undirected (self.InIsland network) self.Attached)
    (split : IslandPieces network self id pieces) {piece : IslandComponent} (member : piece ∈ pieces)
    (some' : piece.components ≠ []) {net : NetId} (there : net ∈ piece.nets) : ¬ Dropped pieces net := by
  intro gone
  obtain ⟨other, member', empty, there'⟩ := gone
  obtain ⟨c, hc⟩ := List.exists_mem_of_ne_nil _ some'
  obtain ⟨v, -, reach⟩ := split.component piece member
  obtain ⟨w, -, reach'⟩ := split.component other member'
  have first := (reach _).mp (IslandComponent.net_mem_vertices.mpr there)
  have second := (reach' _).mp (IslandComponent.net_mem_vertices.mpr there')
  have path := (second.trans (consistent.reach_symm first)).trans
    ((reach (.component c)).mp (IslandComponent.component_mem_vertices.mpr hc))
  have := IslandComponent.component_mem_vertices.mp ((reach' _).mpr path)
  rw [empty] at this
  exact List.not_mem_nil this

omit [F64 F] in
/-- An island is taken apart: its components need more islands than there are ids, or its revision
is the last one. -/
def RepairShort (wiring : Wiring) (island : IslandTopology) (unused : Nat) : Prop :=
  unused < classCount wiring.Coupled {c | c ∈ island.components} - 1 ∨
    island.components ≠ [] ∧ 2 ^ 64 ≤ island.revision + 1

omit [F64 F] in
/-- Island `id` was repaired; nothing outside it changed. -/
structure IslandRepaired (bad : IslandId → Prop) (registry : DefinitionRegistry F) (network : Network F)
    (id : IslandId) (island : IslandTopology) (before after : DerivedTopology) : Prop where
  ok : IslandsOk (fun j => bad j ∧ j ≠ id) registry network after
  nets : after.nets = before.nets
  wireNetMap : after.wireNetMap = before.wireNetMap
  slots : after.islands.slotCount =
    before.islands.slotCount + (classCount (network.wiring registry).Coupled {c | c ∈ island.components} - 1)
  others : ∀ j, j ≠ id → before.islands.get j ≠ none → after.islands.get j = before.islands.get j
  outside : ∀ v, before.islandLabel network v ≠ some id →
    after.islandLabel network v = before.islandLabel network v
  invalidation : (after.islands.get id = none ∧ (∀ j, j ≠ id → after.islands.get j = before.islands.get j) ∧
      after.invalidation = before.invalidation.markRetired id) ∨
    ∃ ids : List IslandId, id ∈ ids ∧ (∀ j ∈ ids, j = id ∨ before.islands.slotCount ≤ j.index) ∧
      (∀ j ∈ ids, ∃ island, after.islands.get j = some island) ∧
      (∀ j, j ∉ ids → after.islands.get j = before.islands.get j) ∧
      after.invalidation = ids.foldl WorldInvalidation.markTopologyDirty before.invalidation

omit [F64 F] in
/-- Into how many pieces with components the island falls. -/
theorem IslandPieces.count {bad : IslandId → Prop} (consistent : network.Consistent registry)
    (nets : NetsSound registry network self) (h : IslandsOk bad registry network self) {id : IslandId}
    {island : IslandTopology} (found : self.islands.get id = some island) {pieces kept : List IslandComponent}
    (split : IslandPieces network self id pieces)
    (perm : (pieces.filter fun piece => piece.components ≠ []).Perm kept) :
    classCount (network.wiring registry).Coupled {c | c ∈ island.components} = kept.length := by
  have member : ∀ c, c ∈ island.components ↔ self.islandOf network c = some id := by
    intro c
    refine ⟨h.members id island found c, fun on => ?_⟩
    obtain ⟨island', found', member⟩ := h.named c id on
    obtain rfl := Option.some.inj (found.symm.trans found')
    exact member
  have keptOf : ∀ l ∈ kept.map IslandComponent.components, ∃ piece ∈ pieces, piece.components ≠ [] ∧ piece.components = l := by
    intro l hl
    obtain ⟨piece, hp, rfl⟩ := List.mem_map.mp hl
    obtain ⟨listed, some'⟩ := List.mem_filter.mp (perm.mem_iff.mpr hp)
    exact ⟨piece, listed, of_decide_eq_true some', rfl⟩
  have classes : ClassPieces (network.wiring registry).Coupled {c | c ∈ island.components}
      (kept.map IslandComponent.components) := by
    refine ⟨fun c there => ?_, fun l hl c hc => ?_, fun l hl => ?_, fun l hl c hc d there => ?_, ?_⟩
    · obtain ⟨piece, listed, here⟩ := split.covers (.component c) ((member c).mp there)
      have here := IslandComponent.component_mem_vertices.mp here
      exact ⟨_, List.mem_map.mpr ⟨piece, perm.mem_iff.mp (List.mem_filter.mpr
        ⟨listed, decide_eq_true (List.ne_nil_of_mem here)⟩), rfl⟩, here⟩
    · obtain ⟨piece, listed, -, rfl⟩ := keptOf l hl
      obtain ⟨start, on, reach⟩ := split.component piece listed
      exact (member c).mpr ((h.coarse.reach ((reach (.component c)).mp
        (IslandComponent.component_mem_vertices.mpr hc))).symm.trans on)
    · obtain ⟨piece, -, some', rfl⟩ := keptOf l hl
      exact some'
    · obtain ⟨piece, listed, -, rfl⟩ := keptOf l hl
      obtain ⟨start, -, reach⟩ := split.component piece listed
      have first := (reach (.component c)).mp (IslandComponent.component_mem_vertices.mpr hc)
      rw [← reach_iff_coupled consistent nets, ← IslandComponent.component_mem_vertices]
      exact ⟨fun hd => (h.undirected.reach_symm first).trans ((reach _).mp hd), fun path => (reach _).mpr (first.trans path)⟩
    · rw [List.pairwise_map]
      refine ((perm.pairwise_iff fun {p q} apart u hu hu' => apart u hu' hu).mp (split.disjoint.filter _)).imp
        fun {p q} apart c hc hc' => ?_
      exact apart (.component c) (IslandComponent.component_mem_vertices.mpr hc)
        (IslandComponent.component_mem_vertices.mpr hc')
  rw [classes.count, List.length_map]

theorem repairIsland_spec {bad : IslandId → Prop} (consistent : network.Consistent registry)
    (partitioned : registry.Partitioned) (nets : NetsSound registry network self)
    (h : IslandsOk bad registry network self) {id : IslandId} {island : IslandTopology}
    (found : self.islands.get id = some island) {affected : List NetId}
    (starts : ∀ net ∈ affected, self.islandOfNet net = some id)
    (anchored : ∀ net, self.islandOfNet net = some id → (∃ c, self.Touches net c) ∨ net ∈ affected)
    {scratch : TraversalScratch} (sound : scratch.Sound) :
    Returns (RepairShort (network.wiring registry) island self.islands.unused)
      (self.repairIsland registry network scratch id affected) fun result =>
        ¬ RepairShort (network.wiring registry) island self.islands.unused ∧
          IslandRepaired bad registry network id island self result.1 ∧ result.2.Sound := by
  obtain ⟨pieces, walked, run, sound', split⟩ :=
    islandComponents_spec consistent partitioned nets h found starts anchored sound
  have labelOf : ∀ piece ∈ pieces, ∀ v ∈ piece.vertices, self.islandLabel network v = some id := by
    intro piece hp v member
    obtain ⟨start, on, reach⟩ := split.component piece hp
    exact (h.coarse.reach ((reach v).mp member)).symm.trans on
  have netInside : ∀ piece ∈ pieces, ∀ net ∈ piece.nets, net.index < self.netIslandMap.length :=
    fun piece hp net member =>
      lt_of_islandOfNet (labelOf piece hp (.net net) (IslandComponent.net_mem_vertices.mpr member))
  obtain ⟨kept, mid, drop, dropped⟩ := dropPieces_spec id netInside
  have keptOf : ∀ piece ∈ kept, piece ∈ pieces ∧ piece.components ≠ [] := by
    intro piece hp
    obtain ⟨member, some'⟩ := List.mem_filter.mp (dropped.perm.mem_iff.mp hp)
    exact ⟨member, of_decide_eq_true some'⟩
  -- the labels after the nets without components were dropped
  have midIslands : mid.islands = self.islands := by rw [dropped.rest]
  have midChunks : mid.deviceChunks = self.deviceChunks := by rw [dropped.rest]
  have midNets : mid.nets = self.nets := by rw [dropped.rest]
  have midWires : mid.wireNetMap = self.wireNetMap := by rw [dropped.rest]
  have midInvalidation : mid.invalidation = self.invalidation := by rw [dropped.rest]
  have midComponent : ∀ c, mid.islandOf network c = self.islandOf network c :=
    islandOf_congr midChunks rfl
  have midBeside : Beside registry network mid := ⟨h.beside.arena, midChunks ▸ h.beside.aligned⟩
  have midOutside : ∀ v, self.islandLabel network v ≠ some id →
      mid.islandLabel network v = self.islandLabel network v := by
    intro v off
    cases v with
    | component c => exact midComponent c
    | net net =>
      refine dropped.stays net fun gone => ?_
      obtain ⟨piece, member, -, there⟩ := gone
      exact off (labelOf piece member (.net net) (IslandComponent.net_mem_vertices.mpr there))
  have midInside : ∀ piece ∈ kept, ∀ v ∈ piece.vertices, mid.islandLabel network v = some id := by
    intro piece hp v member
    obtain ⟨listed, some'⟩ := keptOf piece hp
    rw [← labelOf piece listed v member]
    cases v with
    | component c => exact midComponent c
    | net net =>
      exact dropped.stays net
        (split.not_dropped h.undirected listed some' (IslandComponent.net_mem_vertices.mp member))
  have midDropped : ∀ v, self.islandLabel network v = some id → (∀ piece ∈ kept, v ∉ piece.vertices) →
      mid.islandLabel network v = none := by
    intro v on missing
    obtain ⟨piece, member, there⟩ := split.covers v on
    have empty : piece.components = [] := by
      by_contra some'
      exact missing piece
        (dropped.perm.mem_iff.mpr (List.mem_filter.mpr ⟨member, decide_eq_true some'⟩)) there
    cases v with
    | component c =>
      have := IslandComponent.component_mem_vertices.mp there
      rw [empty] at this
      exact absurd this List.not_mem_nil
    | net net => exact dropped.dropped net ⟨piece, member, empty, IslandComponent.net_mem_vertices.mp there⟩
  have count := split.count consistent nets h found dropped.perm.symm
  have inhabited : kept ≠ [] → island.components ≠ [] := by
    intro some'
    obtain ⟨piece, hp⟩ := List.exists_mem_of_ne_nil _ some'
    obtain ⟨listed, nonempty⟩ := keptOf piece hp
    obtain ⟨c, hc⟩ := List.exists_mem_of_ne_nil _ nonempty
    obtain ⟨island', found', member⟩ := h.named c id (labelOf piece listed (.component c)
      (IslandComponent.component_mem_vertices.mpr hc))
    obtain rfl := Option.some.inj (found.symm.trans found')
    exact List.ne_nil_of_mem member
  unfold repairIsland
  rw [found]
  dsimp only
  refine Returns.bind_some run (Returns.bind_some drop ?_)
  dsimp only
  by_cases none' : kept = []
  · -- no component is left
    rw [if_pos none']
    obtain ⟨islands, removed, shrunk⟩ := DenseIdStore.remove_spec h.sound found
    refine Returns.bind_some (by rw [midIslands]; exact removed) ?_
    have repieced : Repieced registry network id self ({ mid with islands }.markRetired id) [] := by
      refine ⟨List.nodup_nil, by simp, shrunk.sound, ⟨midBeside.arena, midBeside.aligned⟩, dropped.length,
        midNets, by simp, fun j _ => shrunk.get j, by simp, midOutside, fun v on _ => ?_⟩
      exact midDropped v on (by simp [none'])
    have bare : island.components = [] := by
      by_contra some'
      obtain ⟨c, hc⟩ := List.exists_mem_of_ne_nil _ some'
      obtain ⟨piece, listed, here⟩ := split.covers (.component c) (h.members id island found c hc)
      have := dropped.perm.mem_iff.mpr (List.mem_filter.mpr ⟨listed,
        decide_eq_true (List.ne_nil_of_mem (IslandComponent.component_mem_vertices.mp here))⟩)
      rw [none'] at this
      exact List.not_mem_nil this
    rw [none', List.length_nil] at count
    refine ⟨?_, ⟨repieced.ok h split ?_, midNets, midWires, ?_, fun j different _ => ?_,
      midOutside, Or.inl ⟨?_, fun j different => ?_, ?_⟩⟩, sound'⟩
    · rintro (few | ⟨some', -⟩)
      · rw [count] at few
        exact absurd few (Nat.not_lt_zero _)
      · exact some' bare
    · rw [List.map_nil, ← none']
      exact dropped.perm.symm
    · rw [count]
      exact shrunk.slots
    · exact (shrunk.get j).trans (if_neg different)
    · exact (shrunk.get id).trans (if_pos rfl)
    · exact (shrunk.get j).trans (if_neg different)
    · show mid.invalidation.markRetired id = _
      rw [midInvalidation]
  · -- the largest piece keeps the island
    rw [if_neg none']
    obtain ⟨keep, largest, index, read, perm⟩ := keep_largest IslandComponent.rewriteCost none'
    have member : largest ∈ kept := List.mem_of_getElem? read
    refine Returns.bind_some index (Returns.bind_some read ?_)
    by_cases overflow : 2 ^ 64 ≤ island.revision + 1
    · rw [if_neg (Nat.not_lt.mpr overflow)]
      exact Or.inr ⟨inhabited none', overflow⟩
    rw [if_pos (Nat.not_le.mp overflow)]
    refine Returns.bind_some rfl ?_
    obtain ⟨islands, modified, changed⟩ := DenseIdStore.modify_spec (midIslands ▸ h.sound)
      (midIslands ▸ found) fun _ => ⟨largest.components, island.revision + 1⟩
    have start : IslandSplit registry network id mid ({ mid with islands }.markTopologyDirty id)
        [(id, largest)] := by
      refine ⟨List.nodup_singleton _, List.mem_singleton.mpr rfl, fun p hp => Or.inl ?_, changed.sound,
        congrArg (· + 1) changed.slots, fun p hp => ⟨island.revision + 1, ?_⟩, fun j missing => ?_,
        ⟨midBeside.arena, midBeside.aligned⟩, fun p hp v there => ?_, fun v _ => ?_, rfl, rfl, rfl, rfl⟩
      · rw [List.mem_singleton.mp hp]
      · rw [List.mem_singleton.mp hp]
        exact (changed.get id).trans (if_pos rfl)
      · exact (changed.get j).trans (if_neg (by simpa using missing))
      · rw [List.mem_singleton.mp hp] at there ⊢
        rw [← midInside largest member v there]
        cases v <;> rfl
      · cases v <;> rfl
    refine Returns.bind_some (a := { mid with islands }) (by rw [modifyIsland, bind_of_eq_some modified]) ?_
    have loop := splitPieces start (swapRemove kept keep)
      (fun piece hp net there => by
        rw [dropped.length]
        exact netInside piece (keptOf piece (mem_of_mem_swapRemove hp)).1 net there)
      (fun piece hp c hc => ⟨id, midInside piece (mem_of_mem_swapRemove hp) (.component c)
        (IslandComponent.component_mem_vertices.mpr hc)⟩)
      ((perm.pairwise_iff fun {p q} apart u hu hu' => apart u hu' hu).mp
        ((dropped.perm.symm.pairwise_iff fun {p q} apart u hu hu' => apart u hu' hu).mp
          (split.disjoint.filter _)))
    refine Returns.bind (loop.mono (fun full => Or.inl ?_) fun _ post => post) fun next after => ?_
    · rwa [midIslands, length_swapRemove, ← count] at full
    · obtain ⟨room, pairs, values, s⟩ := after
      rw [midIslands, length_swapRemove, ← count] at room
      have pairOf : ∀ p ∈ pairs, p.2 ∈ kept := fun p hp =>
        perm.mem_iff.mpr (values ▸ List.mem_map.mpr ⟨p, hp, rfl⟩)
      have others : ∀ j, j ∉ pairs.map Prod.fst → next.islands.get j = self.islands.get j := by
        intro j missing
        rw [s.others j missing, midIslands]
      have outside : ∀ v, self.islandLabel network v ≠ some id →
          next.islandLabel network v = self.islandLabel network v := by
        intro v off
        rw [s.otherLabels v, midOutside v off]
        intro p hp there
        exact off (labelOf p.2 (keptOf _ (pairOf p hp)).1 v there)
      have repieced : Repieced registry network id self next pairs := by
        refine ⟨s.nodup, by rw [← midIslands]; exact s.fresh, s.sound, s.beside, s.netMap.trans dropped.length,
          s.nets.trans midNets, s.islands, fun j missing => ?_, s.labels, outside, fun v on missing => ?_⟩
        · rw [others j missing, if_neg fun same : j = id => missing (same ▸ s.kept)]
        · rw [s.otherLabels v missing]
          refine midDropped v on fun piece hp there => ?_
          have hp' : piece ∈ pairs.map Prod.snd := values ▸ perm.mem_iff.mp hp
          obtain ⟨p, hp'', rfl⟩ := List.mem_map.mp hp'
          exact missing p hp'' there
      have length : pairs.length = kept.length := by
        rw [perm.length_eq, ← values, List.length_map]
      have slots := s.slots
      have some' := List.length_pos_iff.mpr none'
      rw [midIslands] at slots
      have grown : next.islands.slotCount = self.islands.slotCount + (kept.length - 1) := by omega
      refine ⟨not_or.mpr ⟨Nat.not_lt.mpr room, fun both => overflow both.2⟩, ⟨repieced.ok h split ?_, s.nets.trans midNets,
        s.wireNetMap.trans midWires, by rw [count]; exact grown, fun j different held => ?_, outside, Or.inr ⟨pairs.map Prod.fst, s.kept, fun j there => ?_, fun j there => ?_, others,
        ?_⟩⟩, sound'⟩
      · exact dropped.perm.symm.trans (perm.trans (by rw [values]))
      · apply others
        intro there
        obtain ⟨p, hp, rfl⟩ := List.mem_map.mp there
        rcases s.fresh p hp with same | new
        · exact different same
        · obtain ⟨value, held⟩ := Option.ne_none_iff_exists'.mp held
          rw [midIslands] at new
          exact absurd (h.sound.index_lt held) (Nat.not_lt.mpr new)
      · obtain ⟨p, hp, rfl⟩ := List.mem_map.mp there
        rw [← midIslands]
        exact s.fresh p hp
      · obtain ⟨p, hp, rfl⟩ := List.mem_map.mp there
        obtain ⟨revision, held⟩ := s.islands p hp
        exact ⟨_, held⟩
      · rw [s.invalidation, midInvalidation]

end DerivedTopology

end Hynergy
