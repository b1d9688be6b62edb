import Hynergy.Lib.ClassCount
import Hynergy.Topology.Invariant
import Hynergy.Topology.MarkReuse

/-!
# Repairing a net

The wires of a damaged net are walked; the largest piece keeps the net, every other piece
becomes a net of its own.
-/

namespace Hynergy

open Lib Relation

variable {F : Type}

theorem maxIndexByKey_spec {α : Type} (key : α → Nat) {l : List α} (some' : l ≠ []) :
    ∃ i, maxIndexByKey key l = some i ∧ i < l.length := by
  induction l with
  | nil => exact absurd rfl some'
  | cons x xs ih =>
    unfold maxIndexByKey
    by_cases single : xs = []
    · subst single
      exact ⟨0, rfl, Nat.succ_pos _⟩
    · obtain ⟨i, found, inside⟩ := ih single
      rw [found]
      dsimp only
      split
      · exact ⟨i + 1, rfl, Nat.succ_lt_succ inside⟩
      · exact ⟨0, rfl, Nat.succ_pos _⟩

/-- The largest piece and the others. -/
theorem keep_largest {α : Type} (key : α → Nat) {l : List α} (some' : l ≠ []) :
    ∃ i x, maxIndexByKey key l = some i ∧ l[i]? = some x ∧ l.Perm (x :: swapRemove l i) := by
  obtain ⟨i, found, inside⟩ := maxIndexByKey_spec key some'
  exact ⟨i, l[i], found, List.getElem?_eq_getElem inside,
    swapRemove_perm (List.getElem?_eq_getElem inside)⟩

namespace DerivedTopology

variable {registry : DefinitionRegistry F} {network : Network F} {self next : DerivedTopology}

/-! ### The pieces of a net -/

theorem visitWire_marking (slots : Nat) (dom : WireId → Prop)
    (inside : ∀ wire, dom wire → wire.index < slots) :
    Marking (fun (scratch : TraversalScratch) wire => scratch.visitWire wire.index) dom
      (fun scratch => scratch.Sound ∧ slots ≤ scratch.wireSeen.length)
      (fun scratch wire => scratch.wireSeen[wire.index]? = some true) := by
  constructor
  · intro scratch wire valid hw new
    obtain ⟨seen, touched, run, ok, length, marks⟩ := TraversalScratch.visitMark_fresh
      valid.1.wires (Nat.lt_of_lt_of_le (inside wire hw) valid.2) new
    refine ⟨{ scratch with wireSeen := seen, touchedWires := touched }, ?_,
      ⟨⟨ok, valid.1.nets, valid.1.words⟩, by rw [length]; exact valid.2⟩, fun u => ?_⟩
    · unfold TraversalScratch.visitWire
      rw [bind_of_eq_some run]
    · rw [marks, NonZeroId.index_inj]
  · intro scratch wire valid hw old
    unfold TraversalScratch.visitWire
    rw [bind_of_eq_some (TraversalScratch.visitMark_again old)]

/-- A piece of a net: its wires, each once, and the components of their terminals. -/
structure WirePiece (registry : DefinitionRegistry F) (network : Network F) (piece : WireComponent) :
    Prop where
  nodup : piece.wires.Nodup
  nonempty : piece.wires ≠ []
  terminals : ∀ device, (piece.terminalComponents.filter fun c => c.device = device).Perm
    (network.incidences registry (fun wire => wire ∈ piece.wires) device)

/-- The pieces of a net are the connected classes of its wires. -/
structure WirePieces (registry : DefinitionRegistry F) (network : Network F)
    (topology : DerivedTopology) (id : NetId) (pieces : List WireComponent) : Prop where
  each : ∀ piece ∈ pieces, WirePiece registry network piece
  component : ∀ piece ∈ pieces, ∃ v, topology.wireNet v = some id ∧
    ∀ u, u ∈ piece.wires ↔ ReflTransGen network.WireEdge v u
  disjoint : pieces.Pairwise fun p q => ∀ u ∈ p.wires, u ∉ q.wires
  covers : ∀ u, topology.wireNet u = some id → ∃ piece ∈ pieces, u ∈ piece.wires

/-- What the walk over a net rests on: nets may be damaged, but their wires are live and no edge
leads from one net to another. -/
structure NetWalkable (registry : DefinitionRegistry F) (network : Network F) (topology : DerivedTopology)
    (id : NetId) : Prop where
  consistent : network.Consistent registry
  partitioned : registry.Partitioned
  nets : NetsOk (fun _ => True) registry network topology
  live : ∃ net, topology.nets.get id = some net

variable [F64 F]

omit [F64 F] in
theorem wireNeighbors_of_live {wire : WireId} {slot : WireSlot} (live : network.wireSlot wire = some slot) :
    ∃ ns, wireNeighbors network wire = some ns ∧ ∀ u, u ∈ ns ↔ network.WireEdge wire u := by
  refine ⟨slot.filterMap ConnectionRef.asWire, ?_, fun u => ?_⟩
  · unfold wireNeighbors
    rw [Network.connectionsOf_eq, bind_of_eq_some live]
  · rw [List.mem_filterMap]
    constructor
    · intro there
      obtain ⟨c, member, at'⟩ := there
      obtain rfl := ConnectionRef.asWire_eq_some.mp at'
      exact ⟨slot, live, member⟩
    · intro edge
      obtain ⟨slot', live', member⟩ := edge
      obtain rfl := Option.some.inj (live.symm.trans live')
      exact ⟨_, member, rfl⟩

/-- The walks over a net find the same pieces with every scratch: the connected classes of the
wires that are still in the net. -/
theorem wireComponents_walks {id : NetId} {net : Net} (walkable : NetWalkable registry network self id)
    (found : self.nets.get id = some net) :
    ∃ pieces, Pieces network.WireEdge (fun _ => False)
        (net.wires.filter fun start => self.wireNet start = some id) (pieces.map WireComponent.wires) ∧
      (∀ piece ∈ pieces, ∀ device, (piece.terminalComponents.filter fun c => c.device = device).Perm
        (network.incidences registry (fun wire => wire ∈ piece.wires) device)) ∧
      ∀ scratch : TraversalScratch, scratch.Sound → ∃ scratch',
        wireComponents self registry network id scratch = some (pieces, scratch') ∧ scratch'.Sound := by
  obtain ⟨consistent, partitioned, h, -⟩ := walkable
  have slotOf : ∀ {wire : WireId}, self.wireNet wire = some id →
      ∃ slot, network.wireSlot wire = some slot := fun on =>
    Option.isSome_iff_exists.mp (h.live_of_wireNet on)
  -- the candidates that still belong to the net
  have starts : net.wires.filterM (fun start => do
      let entry ← self.wireNetMap[start.index]?
      some (decide (entry = some id))) =
      some (net.wires.filter fun start => self.wireNet start = some id) := by
    apply filterM_eq_some
    intro wire member
    have inside := h.mapped id net found wire member
    rw [bind_of_eq_some (List.getElem?_eq_getElem inside), wireNet, List.getElem?_eq_getElem inside]
    rfl
  -- the walk stays in the net
  let dom : WireId → Prop := fun wire => self.wireNet wire = some id
  have closed : ∀ u v, dom u → network.WireEdge u v → dom v := fun u v hu edge =>
    (h.coarse u v edge).symm.trans hu
  have inside : ∀ wire ∈ net.wires.filter fun start => self.wireNet start = some id, dom wire :=
    fun wire member => of_decide_eq_true (List.mem_filter.mp member).2
  obtain ⟨blank, begin', soundBlank, roomBlank, clearBlank⟩ :=
    TraversalScratch.beginWireTraversal_spec TraversalScratch.sound_empty network.wires.length
  obtain ⟨done, pieces, walks, split⟩ :=
    components_of_edges (visitWire_marking network.wires.length dom fun wire hw => by
        obtain ⟨slot, live⟩ := slotOf hw
        exact Network.index_lt_of_wireSlot live)
      (show ∀ wire, dom wire → wire ∈ net.wires from fun wire hw => by
        obtain ⟨net', found', member⟩ := h.named wire id hw
        obtain rfl := Option.some.inj (found.symm.trans found')
        exact member)
      (fun wire hw => by
        obtain ⟨slot, live⟩ := slotOf hw
        exact wireNeighbors_of_live live)
      closed (fun _ _ _ edge => consistent.undirected.symm edge) (Nat.le_refl _) inside
      ⟨soundBlank, roomBlank⟩ fun wire => clearBlank wire.index
  have terminals : ∀ piece ∈ pieces, ∃ found, piece.mapM (wireTerminals registry network) = some found ∧
      ∀ device, (found.flatten.filter fun c => c.device = device).Perm
        (network.incidences registry (fun wire => wire ∈ piece) device) := by
    intro piece hp
    obtain ⟨v, start, reach⟩ := split.component piece hp
    exact Network.wiresTerminals_spec consistent partitioned (split.nodup piece hp)
      fun wire member => slotOf ((h.coarse.reach ((reach wire).mp member)).symm.trans (inside v start))
  let collect : List WireId → List DeviceComponent := fun wires =>
    ((wires.mapM (wireTerminals registry network)).getD []).flatten
  have collected : pieces.mapM (fun wires => do
      let terminals ← wires.mapM (wireTerminals registry network)
      some ({ wires, terminalComponents := terminals.flatten } : WireComponent)) =
      some (pieces.map fun wires => ⟨wires, collect wires⟩) := by
    apply mapM_eq_some
    intro piece hp
    obtain ⟨found, read, -⟩ := terminals piece hp
    rw [bind_of_eq_some read]
    dsimp only [collect]
    rw [read]
    rfl
  have run : wireComponents self registry network id {} =
      some (pieces.map fun wires => ⟨wires, collect wires⟩, done) := by
    unfold wireComponents
    rw [bind_of_eq_some begin', bind_of_eq_some found]
    dsimp only
    rw [bind_of_eq_some starts, bind_of_eq_some walks]
    dsimp only
    rw [bind_of_eq_some collected]
  refine ⟨pieces.map fun wires => ⟨wires, collect wires⟩, ?_, ?_, fun scratch sound => ?_⟩
  · have same : (pieces.map fun wires => (⟨wires, collect wires⟩ : WireComponent)).map
        WireComponent.wires = pieces := by
      rw [List.map_map]
      exact List.map_id pieces
    rw [same]
    exact split
  · intro piece member
    obtain ⟨wires, hp, rfl⟩ := List.mem_map.mp member
    obtain ⟨found, read, perm⟩ := terminals wires hp
    dsimp only [collect]
    rw [read, Option.getD_some]
    exact perm
  · obtain ⟨scratch', run', after⟩ := TraversalScratch.wireComponents_follows sound.roomier_empty run
    exact ⟨scratch', run', after.right⟩

theorem wireComponents_spec {id : NetId} {net : Net} (consistent : network.Consistent registry)
    (partitioned : registry.Partitioned) (h : NetsOk (· = id) registry network self)
    (found : self.nets.get id = some net) {scratch : TraversalScratch} (sound : scratch.Sound) :
    ∃ pieces scratch', wireComponents self registry network id scratch = some (pieces, scratch') ∧
      scratch'.Sound ∧ WirePieces registry network self id pieces := by
  have walkable : NetWalkable registry network self id :=
    ⟨consistent, partitioned, h.mono fun _ _ => trivial, net, found⟩
  obtain ⟨pieces, split, terminals, run⟩ := wireComponents_walks walkable found
  obtain ⟨scratch', walks, sound'⟩ := run scratch sound
  have component : ∀ piece ∈ pieces, ∃ v, self.wireNet v = some id ∧
      ∀ u, u ∈ piece.wires ↔ ReflTransGen network.WireEdge v u := by
    intro piece hp
    obtain ⟨v, start, reach⟩ := split.component piece.wires (List.mem_map.mpr ⟨piece, hp, rfl⟩)
    exact ⟨v, of_decide_eq_true (List.mem_filter.mp start).2, reach⟩
  refine ⟨pieces, scratch', walks, sound', fun piece hp => ?_, component, ?_, fun u on => ?_⟩
  · obtain ⟨v, -, reach⟩ := component piece hp
    exact ⟨split.nodup piece.wires (List.mem_map.mpr ⟨piece, hp, rfl⟩),
      List.ne_nil_of_mem ((reach v).mpr .refl), terminals piece hp⟩
  · exact List.pairwise_map.mp split.disjoint
  · obtain ⟨net', found', member⟩ := h.named u id on
    obtain rfl := Option.some.inj (found.symm.trans found')
    rcases split.covers u (List.mem_filter.mpr ⟨member, decide_eq_true on⟩) with old | ⟨wires, walked, there⟩
    · exact old.elim
    · obtain ⟨piece, hp, rfl⟩ := List.mem_map.mp walked
      exact ⟨piece, hp, there⟩

/-! ### The pieces get their nets -/

omit [F64 F] in
/-- `pairs` are the pieces of net `id` with the nets they are in now. -/
structure NetSplit (id : NetId) (before after : DerivedTopology) (pairs : List (NetId × WireComponent)) :
    Prop where
  nodup : (pairs.map Prod.fst).Nodup
  kept : id ∈ pairs.map Prod.fst
  fresh : ∀ p ∈ pairs, p.1 = id ∨ before.nets.slotCount ≤ p.1.index
  sound : after.nets.Sound
  slots : after.nets.slotCount + 1 = before.nets.slotCount + pairs.length
  nets : ∀ p ∈ pairs, after.nets.get p.1 = some ⟨p.2.wires, p.2.terminalComponents⟩
  others : ∀ m, m ∉ pairs.map Prod.fst → after.nets.get m = before.nets.get m
  wires : ∀ p ∈ pairs, ∀ wire ∈ p.2.wires, after.wireNet wire = some p.1
  otherWires : ∀ wire, (∀ p ∈ pairs, wire ∉ p.2.wires) → after.wireNet wire = before.wireNet wire
  wireMap : after.wireNetMap.length = before.wireNetMap.length
  netMap : after.netIslandMap.length = after.nets.slotCount
  islandOf : ∀ m, after.islandOfNet m =
    if m ∈ pairs.map Prod.fst then before.islandOfNet id else before.islandOfNet m
  islands : after.islands = before.islands
  deviceChunks : after.deviceChunks = before.deviceChunks
  invalidation : after.invalidation = before.invalidation

omit [F64 F] in
theorem splitNet_step {id : NetId} {before self : DerivedTopology} (ids : List NetId)
    {pairs : List (NetId × WireComponent)} (h : NetSplit id before self pairs) {piece : WireComponent}
    (inside : ∀ wire ∈ piece.wires, wire.index < before.wireNetMap.length)
    (apart : ∀ p ∈ pairs, ∀ wire ∈ p.2.wires, wire ∉ piece.wires) :
    Returns (self.nets.unused = 0)
      (splitNet (before.islandOfNet id) (ids, self) piece) fun result =>
        0 < self.nets.unused ∧ ∃ new, result.1 = ids ++ [new] ∧ NetSplit id before result.2 (pairs ++ [(new, piece)]) := by
  unfold splitNet
  dsimp only
  refine (DenseIdStore.insert_returns h.sound _).bind fun result inserted => ?_
  obtain ⟨new, nets⟩ := result
  obtain ⟨room, grown⟩ := inserted
  dsimp only at grown ⊢
  obtain ⟨map, run, length, found⟩ := setWireNets_spec piece.wires (some new)
    (show ∀ wire ∈ piece.wires, wire.index < { self with
        nets, netIslandMap := self.netIslandMap ++ [before.islandOfNet id] }.wireNetMap.length by rw [h.wireMap]; exact inside)
  refine Returns.bind_some run ⟨room, new, rfl, ?_⟩
  have newSlot : before.nets.slotCount ≤ new.index := by
    have count := h.slots
    have some' := List.length_pos_of_mem h.kept
    rw [List.length_map] at some'
    rw [grown.slot]
    omega
  have unknown : new ∉ pairs.map Prod.fst := by
    intro member
    obtain ⟨p, hp, same⟩ := List.mem_map.mp member
    have held := h.nets p hp
    rw [same, grown.fresh] at held
    simp at held
  have keys : (pairs ++ [(new, piece)]).map Prod.fst = pairs.map Prod.fst ++ [new] := by
    rw [List.map_append, List.map_singleton]
  constructor
  · rw [keys]
    exact List.nodup_append.mpr ⟨h.nodup, List.nodup_singleton _, fun a ha b hb same =>
      unknown (List.mem_singleton.mp hb ▸ same ▸ ha)⟩
  · rw [keys]
    exact List.mem_append_left _ h.kept
  · intro p hp
    rcases List.mem_append.mp hp with hp | hp
    · exact h.fresh p hp
    · rw [List.mem_singleton.mp hp]
      exact Or.inr newSlot
  · exact grown.sound
  · rw [List.length_append, List.length_singleton, ← Nat.add_assoc, ← h.slots]
    exact congrArg (· + 1) grown.slots
  · intro p hp
    rw [grown.get]
    rcases List.mem_append.mp hp with hp | hp
    · rw [if_neg fun same : p.1 = new => unknown (List.mem_map.mpr ⟨p, hp, same⟩), h.nets p hp]
    · rw [List.mem_singleton.mp hp, if_pos rfl]
  · intro m missing
    rw [keys, List.mem_append, List.mem_singleton, not_or] at missing
    rw [grown.get, if_neg missing.2, h.others m missing.1]
  · intro p hp wire member
    rw [wireNet, found]
    rcases List.mem_append.mp hp with hp | hp
    · rw [if_neg (apart p hp wire member)]
      exact h.wires p hp wire member
    · rw [List.mem_singleton.mp hp] at member ⊢
      rw [if_pos member]
  · intro wire missing
    rw [wireNet, found, if_neg (missing _ (List.mem_append_right _ (List.mem_singleton.mpr rfl)))]
    exact h.otherWires wire fun p hp => missing p (List.mem_append_left _ hp)
  · rw [length, h.wireMap]
  · rw [List.length_append, h.netMap, List.length_singleton]
    exact grown.slots.symm
  · intro m
    rw [islandOfNet, netIsland, keys, join_getElem?_concat, h.netMap,
      show self.nets.slotCount = new.index from grown.slot.symm]
    by_cases same : m = new
    · rw [if_pos (by rw [same]), if_pos (by simp [same])]
    · rw [if_neg fun at' => same (NonZeroId.index_inj.mp at')]
      refine (h.islandOf m).trans ?_
      simp only [List.mem_append, List.mem_singleton, same, or_false]
  · exact h.islands
  · exact h.deviceChunks
  · exact h.invalidation

omit [F64 F] in
theorem splitNets {id : NetId} {before self : DerivedTopology} {kept : WireComponent}
    (start : NetSplit id before self [(id, kept)]) (pieces : List WireComponent)
    (inside : ∀ piece ∈ pieces, ∀ wire ∈ piece.wires, wire.index < before.wireNetMap.length)
    (disjoint : (kept :: pieces).Pairwise fun p q => ∀ u ∈ p.wires, u ∉ q.wires) :
    Returns (before.nets.unused < pieces.length)
      (pieces.foldlM (splitNet (before.islandOfNet id)) ([id], self)) fun result =>
        pieces.length ≤ before.nets.unused ∧ ∃ pairs, pairs.map Prod.snd = kept :: pieces ∧ result.1 = pairs.map Prod.fst ∧
          NetSplit id before result.2 pairs := by
  apply Returns.foldlM fun done (result : List NetId × DerivedTopology) => done.length ≤ before.nets.unused ∧
    ∃ pairs, pairs.map Prod.snd = kept :: done ∧ result.1 = pairs.map Prod.fst ∧ NetSplit id before result.2 pairs
  · exact ⟨Nat.zero_le _, [(id, kept)], rfl, rfl, start⟩
  · intro done piece rest result split inv
    obtain ⟨ids, self⟩ := result
    obtain ⟨-, pairs, values, rfl, h⟩ := inv
    have slots := h.slots
    have length := congrArg List.length values
    simp only [List.length_map, List.length_cons] at length
    have step := splitNet_step (pairs.map Prod.fst) h
      (inside piece (by rw [split]; exact List.mem_append_right _ List.mem_cons_self)) (by
        intro p hp wire member
        have hp' : p.2 ∈ kept :: done := values ▸ List.mem_map.mpr ⟨p, hp, rfl⟩
        rw [split, ← List.cons_append] at disjoint
        exact (List.pairwise_append.mp disjoint).2.2 p.2 hp' piece List.mem_cons_self wire member)
    refine step.mono (fun full => ?_) ?_
    · have total := congrArg List.length split
      simp only [List.length_cons, List.length_append] at total
      unfold DenseIdStore.unused at full ⊢
      omega
    · intro result after
      obtain ⟨room, new, ids, h'⟩ := after
      refine ⟨?_, pairs ++ [(new, piece)], by rw [List.map_append, values]; rfl, by
        rw [ids, List.map_append]; rfl, h'⟩
      rw [List.length_append, List.length_singleton]
      unfold DenseIdStore.unused at room ⊢
      omega

/-! ### The repaired net -/

omit [F64 F] in
/-- Net `id` was repaired into the nets `ids`; nothing else changed. -/
structure NetRepaired (registry : DefinitionRegistry F) (network : Network F) (id : NetId)
    (before after : DerivedTopology) (ids : List NetId) : Prop where
  ok : NetsSound registry network after
  slots : before.nets.slotCount ≤ after.nets.slotCount
  netMap : after.netIslandMap.length = after.nets.slotCount
  islandOf : ∀ m, after.islandOfNet m =
    if m ∈ ids then before.islandOfNet id else if m = id then none else before.islandOfNet m
  nets : ∀ m ∈ ids, ∃ net, after.nets.get m = some net
  fresh : ∀ m ∈ ids, m = id ∨ before.nets.get m = none
  others : ∀ m, m ∉ ids → m ≠ id → after.nets.get m = before.nets.get m
  gone : id ∉ ids → after.nets.get id = none
  wires : ∀ wire m, m ∈ ids → after.wireNet wire = some m → before.wireNet wire = some id
  elsewhere : ∀ wire, before.wireNet wire ≠ some id → after.wireNet wire = before.wireNet wire
  single : ids.length ≤ 1 → ∀ wire, after.wireNet wire = before.wireNet wire
  islands : after.islands = before.islands
  deviceChunks : after.deviceChunks = before.deviceChunks
  invalidation : after.invalidation = before.invalidation

omit [F64 F] in
/-- The pieces of a net under their new labels. -/
theorem NetSplit.repaired {id : NetId} {pairs : List (NetId × WireComponent)}
    {pieces : List WireComponent} (consistent : network.Consistent registry)
    (h : NetsOk (· = id) registry network self)
    (split : WirePieces registry network self id pieces) (perm : pieces.Perm (pairs.map Prod.snd))
    (s : NetSplit id self next pairs) :
    NetRepaired registry network id self next (pairs.map Prod.fst) := by
  have pieceOf : ∀ p ∈ pairs, p.2 ∈ pieces := fun p hp =>
    perm.mem_iff.mpr (List.mem_map.mpr ⟨p, hp, rfl⟩)
  have label : ∀ p ∈ pairs, ∀ wire ∈ p.2.wires, self.wireNet wire = some id := by
    intro p hp wire member
    obtain ⟨v, on, reach⟩ := split.component p.2 (pieceOf p hp)
    exact (h.coarse.reach ((reach wire).mp member)).symm.trans on
  have pairOf : ∀ wire, self.wireNet wire = some id → ∃ p ∈ pairs, wire ∈ p.2.wires := by
    intro wire on
    obtain ⟨piece, hp, member⟩ := split.covers wire on
    obtain ⟨p, here, rfl⟩ := List.mem_map.mp (perm.mem_iff.mp hp)
    exact ⟨p, here, member⟩
  have elsewhere : ∀ wire, self.wireNet wire ≠ some id → next.wireNet wire = self.wireNet wire :=
    fun wire off => s.otherWires wire fun p hp member => off (label p hp wire member)
  have keys : ∀ m, m ∈ pairs.map Prod.fst → ∃ piece, (m, piece) ∈ pairs := by
    intro m member
    obtain ⟨p, hp, rfl⟩ := List.mem_map.mp member
    exact ⟨p.2, hp⟩
  have unused : ∀ m, m ∈ pairs.map Prod.fst → m = id ∨ self.nets.get m = none := by
    intro m member
    obtain ⟨piece, hp⟩ := keys m member
    refine (s.fresh _ hp).imp_right fun new => ?_
    cases held : self.nets.get m with
    | none => rfl
    | some old => exact absurd (h.sound.index_lt held) (Nat.not_lt.mpr new)
  have unnamed : ∀ m wire, m ∈ pairs.map Prod.fst → self.wireNet wire = some m → m = id := by
    intro m wire member on
    rcases unused m member with same | free
    · exact same
    · obtain ⟨old, held, -⟩ := h.named wire m on
      simp [held] at free
  -- which wires a new net has
  have wiresIff : ∀ m piece, (m, piece) ∈ pairs → ∀ wire,
      next.wireNet wire = some m ↔ wire ∈ piece.wires := by
    intro m piece hp wire
    refine ⟨fun on => ?_, s.wires (m, piece) hp wire⟩
    by_cases old : self.wireNet wire = some id
    · obtain ⟨q, hq, member⟩ := pairOf wire old
      have same : q.1 = m := Option.some.inj ((s.wires q hq wire member).symm.trans on)
      have := List.inj_on_of_nodup_map s.nodup hq hp same
      rwa [this] at member
    · rw [elsewhere wire old] at on
      exact absurd (unnamed m wire (List.mem_map.mpr ⟨_, hp, rfl⟩) on ▸ on) old
  have kept : ∀ m, m ∉ pairs.map Prod.fst → m ≠ id ∧ next.nets.get m = self.nets.get m := by
    intro m missing
    exact ⟨fun same => missing (same ▸ s.kept), s.others m missing⟩
  -- the wires of a net that was not repaired
  have wiresKept : ∀ m, m ∉ pairs.map Prod.fst → ∀ wire,
      next.wireNet wire = some m ↔ self.wireNet wire = some m := by
    intro m missing wire
    by_cases old : self.wireNet wire = some id
    · obtain ⟨q, hq, member⟩ := pairOf wire old
      rw [s.wires q hq wire member, old]
      constructor
      · intro same
        exact absurd (List.mem_map.mpr ⟨q, hq, Option.some.inj same⟩) missing
      · intro same
        exact absurd (Option.some.inj same).symm (kept m missing).1
    · rw [elsewhere wire old]
  have labels : Coarse network.WireEdge next.wireNet ∧
      ∀ k, ¬ (False ∧ k ≠ some id) → Exact network.LiveWire network.WireEdge next.wireNet k := by
    have nodup : ((pairs.map fun p => (some p.1, p.2.wires)).map Prod.fst).Nodup := by
      have := s.nodup.map (Option.some_injective NetId)
      rw [List.map_map] at this ⊢
      exact this
    refine labels_of_pieces nodup consistent.undirected h.coarse ?_ ?_ ?_ ?_ ?_ ?_
    · intro k other _ u v hu hv hk hk'
      obtain ⟨m, on⟩ := h.isSome hu
      obtain rfl := on.symm.trans hk
      exact h.exact m (fun same => other (congrArg some same)) u v hu hv hk hk'
    · intro q hq
      obtain ⟨p, hp, rfl⟩ := List.mem_map.mp hq
      obtain ⟨v, -, reach⟩ := split.component p.2 (pieceOf p hp)
      exact ⟨v, reach⟩
    · intro u _ on
      obtain ⟨p, hp, member⟩ := pairOf u on
      exact ⟨_, List.mem_map.mpr ⟨p, hp, rfl⟩, member⟩
    · intro q hq u member
      obtain ⟨p, hp, rfl⟩ := List.mem_map.mp hq
      exact s.wires p hp u member
    · exact fun u _ off => elsewhere u off
    · intro q hq
      obtain ⟨p, hp, rfl⟩ := List.mem_map.mp hq
      rcases s.fresh p hp with same | new
      · exact Or.inl (congrArg some same)
      · refine Or.inr fun u _ on => ?_
        obtain ⟨old, held, -⟩ := h.named u p.1 on
        exact absurd (h.sound.index_lt held) (Nat.not_lt.mpr new)
  refine ⟨⟨s.sound, ?_, ?_, ?_, ?_, ?_, ?_, labels.1,
    fun m _ => labels.2 (some m) fun never => never.1⟩, ?_, s.netMap,
    ?_, ?_, unused, fun m missing _ => (kept m missing).2, fun missing => absurd s.kept missing, ?_, elsewhere, ?_,
    s.islands, s.deviceChunks, s.invalidation⟩
  · intro wire
    rw [← h.live]
    by_cases old : self.wireNet wire = some id
    · obtain ⟨p, hp, member⟩ := pairOf wire old
      rw [s.wires p hp wire member, old]
      rfl
    · rw [elsewhere wire old]
  · intro wire m on
    by_cases member : m ∈ pairs.map Prod.fst
    · obtain ⟨piece, hp⟩ := keys m member
      exact ⟨_, s.nets (m, piece) hp, (wiresIff m piece hp wire).mp on⟩
    · rw [(kept m member).2]
      exact h.named wire m ((wiresKept m member wire).mp on)
  · intro m net' held
    by_cases member : m ∈ pairs.map Prod.fst
    · obtain ⟨piece, hp⟩ := keys m member
      rw [s.nets (m, piece) hp] at held
      obtain rfl := Option.some.inj held
      exact (split.each piece (pieceOf _ hp)).nodup
    · rw [(kept m member).2] at held
      exact h.nodup m net' held
  · intro m net' held wire there
    rw [s.wireMap]
    by_cases member : m ∈ pairs.map Prod.fst
    · obtain ⟨piece, hp⟩ := keys m member
      rw [s.nets (m, piece) hp] at held
      obtain rfl := Option.some.inj held
      exact lt_of_wireNet (label (m, piece) hp wire there)
    · rw [(kept m member).2] at held
      exact h.mapped m net' held wire there
  · intro m net' _ held
    by_cases member : m ∈ pairs.map Prod.fst
    · obtain ⟨piece, hp⟩ := keys m member
      rw [s.nets (m, piece) hp] at held
      obtain rfl := Option.some.inj held
      exact ⟨(split.each piece (pieceOf _ hp)).nonempty, fun wire there =>
        (wiresIff m piece hp wire).mpr there⟩
    · rw [(kept m member).2] at held
      obtain ⟨some', on⟩ := h.wires m net' (kept m member).1 held
      exact ⟨some', fun wire there => (wiresKept m member wire).mpr (on wire there)⟩
  · intro m net' _ held device
    by_cases member : m ∈ pairs.map Prod.fst
    · obtain ⟨piece, hp⟩ := keys m member
      rw [s.nets (m, piece) hp] at held
      obtain rfl := Option.some.inj held
      simp only [wiresIff m piece hp]
      exact (split.each piece (pieceOf _ hp)).terminals device
    · rw [(kept m member).2] at held
      simp only [wiresKept m member]
      exact h.terminals m net' (kept m member).1 held device
  · have count := s.slots
    have some' := List.length_pos_of_mem s.kept
    rw [List.length_map] at some'
    omega
  · intro m
    rw [s.islandOf]
    split
    · rfl
    · rename_i missing
      rw [if_neg (kept m missing).1]
  · intro m member
    obtain ⟨piece, hp⟩ := keys m member
    exact ⟨_, s.nets (m, piece) hp⟩
  · intro wire m member on
    obtain ⟨piece, hp⟩ := keys m member
    exact label (m, piece) hp wire ((wiresIff m piece hp wire).mp on)
  · intro few wire
    by_cases old : self.wireNet wire = some id
    · obtain ⟨p, hp, member⟩ := pairOf wire old
      have only : pairs.map Prod.fst = [id] := by
        match pairs.map Prod.fst, few, s.kept with
        | [a], _, here => rw [List.mem_singleton.mp here]
      have : p.1 ∈ pairs.map Prod.fst := List.mem_map.mpr ⟨p, hp, rfl⟩
      rw [only, List.mem_singleton] at this
      rw [s.wires p hp wire member, old, this]
    · exact elsewhere wire old

omit [F64 F] in
/-- Into how many pieces the net falls. -/
theorem WirePieces.count {id : NetId} {pieces : List WireComponent} (consistent : network.Consistent registry)
    (split : WirePieces registry network self id pieces)
    (wireOf : ∀ piece ∈ pieces, ∀ wire ∈ piece.wires, self.wireNet wire = some id) :
    classCount network.WireEdge {wire | self.wireNet wire = some id} = pieces.length := by
  have classes : ClassPieces network.WireEdge {wire | self.wireNet wire = some id} (pieces.map WireComponent.wires) := by
    refine ⟨fun wire on => ?_, fun wires hw wire there => ?_, fun wires hw => ?_, fun wires hw u hu v on => ?_,
      List.pairwise_map.mpr split.disjoint⟩
    · obtain ⟨piece, hp, member⟩ := split.covers wire on
      exact ⟨_, List.mem_map.mpr ⟨piece, hp, rfl⟩, member⟩
    · obtain ⟨piece, hp, rfl⟩ := List.mem_map.mp hw
      exact wireOf piece hp wire there
    · obtain ⟨piece, hp, rfl⟩ := List.mem_map.mp hw
      exact (split.each piece hp).nonempty
    · obtain ⟨piece, hp, rfl⟩ := List.mem_map.mp hw
      obtain ⟨start, -, reach⟩ := split.component piece hp
      have first := (reach u).mp hu
      exact ⟨fun hv => (consistent.undirected.reach_symm first).trans ((reach v).mp hv),
        fun path => (reach v).mpr (first.trans path)⟩
  rw [classes.count, List.length_map]

theorem repairNet_spec {id : NetId} {net : Net} (consistent : network.Consistent registry)
    (partitioned : registry.Partitioned) (h : NetsOk (· = id) registry network self)
    (found : self.nets.get id = some net) (netMap : self.netIslandMap.length = self.nets.slotCount)
    {scratch : TraversalScratch} (sound : scratch.Sound) :
    Returns (self.nets.unused < classCount network.WireEdge {wire | self.wireNet wire = some id} - 1)
      (self.repairNet registry network scratch id) fun result =>
        classCount network.WireEdge {wire | self.wireNet wire = some id} - 1 ≤ self.nets.unused ∧
          result.1.length = classCount network.WireEdge {wire | self.wireNet wire = some id} ∧
          NetRepaired registry network id self result.2.1 result.1 ∧ result.2.2.Sound := by
  obtain ⟨pieces, walked, run, sound', split⟩ :=
    wireComponents_spec consistent partitioned h found sound
  have inside : id.index < self.netIslandMap.length := netMap ▸ h.sound.index_lt found
  have wireOf : ∀ piece ∈ pieces, ∀ wire ∈ piece.wires, self.wireNet wire = some id := by
    intro piece hp wire member
    obtain ⟨v, on, reach⟩ := split.component piece hp
    exact (h.coarse.reach ((reach wire).mp member)).symm.trans on
  rw [split.count consistent wireOf]
  unfold repairNet
  refine Returns.bind_some (netIsland_of_lt inside) (Returns.bind_some run ?_)
  dsimp only
  by_cases none' : pieces = []
  · -- no wire is left
    subst none'
    rw [if_pos List.isEmpty_nil]
    obtain ⟨nets, removed, shrunk⟩ := DenseIdStore.remove_spec h.sound found
    obtain ⟨map, set, length, entries⟩ := @setNetIsland_spec { self with nets } id inside none
    refine Returns.bind_some removed (Returns.bind_some set ⟨Nat.zero_le _, rfl, ?_, sound'⟩)
    have off : ∀ wire, self.wireNet wire ≠ some id := by
      intro wire on
      obtain ⟨piece, hp, -⟩ := split.covers wire on
      simp at hp
    have held : ∀ m net', nets.get m = some net' → m ≠ id ∧ self.nets.get m = some net' := by
      intro m net' held
      rw [shrunk.get] at held
      split at held
      · simp at held
      · exact ⟨‹_›, held⟩
    refine ⟨⟨shrunk.sound, h.live, ?_, ?_, ?_, ?_, ?_, h.coarse, ?_⟩, Nat.le_of_eq shrunk.slots.symm, ?_, ?_,
      by simp, by simp, fun m _ different => ?_, fun _ => ?_, by simp, fun _ _ => rfl, fun _ _ => rfl, rfl, rfl, rfl⟩
    · intro wire m on
      obtain ⟨net', held', member⟩ := h.named wire m on
      refine ⟨net', ?_, member⟩
      show nets.get m = _
      rw [shrunk.get, if_neg fun same : m = id => off wire (same ▸ on), held']
    · exact fun m net' here => h.nodup m net' (held m net' here).2
    · exact fun m net' here => h.mapped m net' (held m net' here).2
    · exact fun m net' _ here => h.wires m net' (held m net' here).1 (held m net' here).2
    · exact fun m net' _ here => h.terminals m net' (held m net' here).1 (held m net' here).2
    · intro m _ u v hu hv hm hm'
      exact h.exact m (fun same => off u (same ▸ hm)) u v hu hv hm hm'
    · exact length.trans (netMap.trans shrunk.slots.symm)
    · intro m
      rw [islandOfNet, netIsland, entries, if_neg List.not_mem_nil]
      rfl
    · show nets.get m = _
      rw [shrunk.get, if_neg different]
    · show nets.get id = _
      rw [shrunk.get, if_pos rfl]
  · -- the largest piece keeps the net
    rw [if_neg (by simpa using none')]
    obtain ⟨keep, kept, index, read, perm⟩ := keep_largest (fun piece => piece.wires.length) none'
    have member : kept ∈ pieces := List.mem_of_getElem? read
    obtain ⟨map, set, length, entries⟩ := setWireNets_spec kept.wires (some id)
      fun wire there => lt_of_wireNet (wireOf kept member wire there)
    obtain ⟨nets, modified, changed⟩ := DenseIdStore.modify_spec h.sound found
      fun _ => ⟨kept.wires, kept.terminalComponents⟩
    refine Returns.bind_some index (Returns.bind_some read (Returns.bind_some set ?_))
    have start : NetSplit id self { self with wireNetMap := map, nets } [(id, kept)] := by
      refine ⟨List.nodup_singleton _, List.mem_singleton.mpr rfl, fun p hp => Or.inl ?_, changed.sound,
        congrArg (· + 1) changed.slots, ?_, ?_, ?_, ?_, length, netMap.trans changed.slots.symm, ?_, rfl, rfl, rfl⟩
      · rw [List.mem_singleton.mp hp]
      · intro p hp
        rw [List.mem_singleton.mp hp, changed.get, if_pos rfl]
      · intro m missing
        rw [changed.get, if_neg (by simpa using missing)]
      · intro p hp wire there
        rw [List.mem_singleton.mp hp] at there ⊢
        rw [wireNet, entries, if_pos there]
      · intro wire missing
        rw [wireNet, entries, if_neg (missing _ (List.mem_singleton.mpr rfl))]
      · intro m
        by_cases same : m = id
        · rw [if_pos (by simp [same]), same]
          rfl
        · rw [if_neg (by simpa using same)]
          rfl
    refine Returns.bind_some (a := { self with wireNetMap := map, nets })
      (by rw [modifyNet, bind_of_eq_some modified]) ?_
    have loop := splitNets start (swapRemove pieces keep)
      (fun piece hp wire there => lt_of_wireNet (wireOf piece (mem_of_mem_swapRemove hp) wire there))
      ((perm.pairwise_iff fun {p q} apart u hu hu' => apart u hu' hu).mp split.disjoint)
    refine Returns.bind (loop.mono (fun full => ?_) fun _ post => post) fun result after => ?_
    · rwa [length_swapRemove] at full
    · obtain ⟨ids, next⟩ := result
      obtain ⟨room, pairs, values, rfl, s⟩ := after
      rw [length_swapRemove] at room
      refine ⟨room, ?_, s.repaired consistent h split (perm.trans (by rw [values])), sound'⟩
      have count := congrArg List.length values
      rw [List.length_map] at count
      rw [List.length_map, count, perm.length_eq]

end DerivedTopology

end Hynergy
