import Hynergy.Topology.DeviceMarks
import Hynergy.Topology.TerminalEdits

/-!
# Removing a device

The device's components leave their nets and islands, and every island it had is repaired.
-/

namespace Hynergy

open Lib Relation

variable {F : Type}

namespace DerivedTopology

variable {registry : DefinitionRegistry F} {network network' : Network F} {self next : DerivedTopology}
  {device : DeviceId}

/-! ### What is affected -/

theorem foldl_pushNew (islands list : List IslandId) (nodup : list.Nodup) :
    (islands.foldl WorldInvalidation.pushNew list).Nodup ∧
      ∀ j, j ∈ islands.foldl WorldInvalidation.pushNew list ↔ j ∈ list ∨ j ∈ islands := by
  induction islands generalizing list with
  | nil => exact ⟨nodup, fun j => by simp⟩
  | cons i islands ih =>
    have nodup' : (WorldInvalidation.pushNew list i).Nodup := by
      unfold WorldInvalidation.pushNew
      split
      · exact nodup
      · exact List.nodup_append.mpr ⟨nodup, List.nodup_singleton i, fun a ha b hb same => by
          rw [List.mem_singleton] at hb
          subst hb
          subst same
          contradiction⟩
    obtain ⟨nodup'', members⟩ := ih _ nodup'
    refine ⟨nodup'', fun j => ?_⟩
    rw [List.foldl_cons, members, WorldInvalidation.mem_pushNew, List.mem_cons, or_assoc]

variable [F64 F]

/-- The affected nets, terminal by terminal. -/
theorem deviceNets_eq (consistent : network.Consistent registry) {row : DeviceRow F}
    (found : network.record device = some row) :
    self.deviceNets network device = (List.range (network.terminalCount device)).filterMap fun t =>
      (network.attachedWire device t).bind self.wireNet := by
  have terminals : row.terminals = (List.range row.terminals.length).map fun t => row.terminals[t]?.join := by
    apply List.ext_getElem?
    intro t
    rw [List.getElem?_map]
    by_cases inside : t < row.terminals.length
    · rw [List.getElem?_range inside, List.getElem?_eq_getElem inside, Option.map_some,
        List.getElem?_eq_getElem inside, Option.join_some]
    · rw [List.getElem?_eq_none (Nat.not_lt.mp inside), List.getElem?_eq_none (by simpa using inside)]
      rfl
  have count : network.terminalCount device = row.terminals.length := by
    rw [Network.terminalCount, found, Option.map_some, Option.getD_some]
  unfold deviceNets
  rw [Network.deviceOf_eq consistent.toStored, found, Option.map_some]
  dsimp only [Network.viewOf]
  rw [terminals, List.reduceOption, List.filterMap_filterMap, List.filterMap_filterMap, List.filterMap_map, count]
  apply List.filterMap_congr
  intro t _
  rw [Network.attachedWire, found, Option.bind_some, Function.comp_apply]
  cases row.terminals[t]?.join <;> rfl

omit [F64 F] in
/-- As many of a device's components are in a net as it has terminals on it. -/
theorem count_deviceNets (consistent : network.Consistent registry) (partitioned : registry.Partitioned)
    {row : DeviceRow F} (found : network.record device = some row) (id : NetId) :
    ((List.range (network.terminalCount device)).filterMap fun t =>
      (network.attachedWire device t).bind self.wireNet).count id =
      (network.incidences registry (fun wire => self.wireNet wire = some id) device).length := by
  obtain ⟨definition, known, defined, length, -⟩ := Network.definition_of_record consistent.toStored found
  have partitions := (partitioned _ _ known).length
  rw [List.count_filterMap, Network.incidences, List.length_filterMap_eq_countP]
  apply List.countP_congr
  intro t member
  have inside : t < definition.terminalPartitions.length := by
    rw [List.mem_range, Network.terminalCount, found, Option.map_some, Option.getD_some] at member
    omega
  rw [Network.incidence, defined, Option.bind_some, List.getElem?_eq_getElem inside, Option.map_some]
  cases network.attachedWire device t with
  | none => simp
  | some wire =>
    rw [Option.bind_some, Option.filter_some]
    by_cases on : self.wireNet wire = some id
    · simp [on]
    · simp [on]

/-! ### What is taken out -/

/-- The device's components are out of every net. -/
structure Stripped (device : DeviceId) (before after : DenseIdStore .net Net) : Prop where
  sound : after.Sound
  slots : after.slotCount = before.slotCount
  gone : ∀ id : NetId, after.get id = none ↔ before.get id = none
  nets : ∀ (id : NetId) net, before.get id = some net → ∃ net', after.get id = some net' ∧ net'.wires = net.wires ∧
    net'.terminalComponents.Perm (net.terminalComponents.filter fun c => c.device ≠ device)

omit [F64 F] in
theorem Stripped.back {before after : DenseIdStore .net Net} (s : Stripped device before after) {id : NetId}
    {net' : Net} (held : after.get id = some net') : ∃ net, before.get id = some net ∧ net'.wires = net.wires ∧
      net'.terminalComponents.Perm (net.terminalComponents.filter fun c => c.device ≠ device) := by
  cases there : before.get id with
  | none =>
    rw [(s.gone id).mpr there] at held
    simp at held
  | some net =>
    obtain ⟨value, held', same⟩ := s.nets id net there
    obtain rfl := Option.some.inj (held.symm.trans held')
    exact ⟨net, rfl, same⟩

omit [F64 F] in
/-- One incidence is removed for each listed net, as often as the net is listed. -/
theorem removeIncidences_spec (device : DeviceId) (ids : List NetId) {self : DerivedTopology}
    (sound : self.nets.Sound) (live : ∀ id ∈ ids, ∃ net, self.nets.get id = some net)
    (counts : ∀ id net, self.nets.get id = some net →
      net.terminalComponents.countP (fun c => c.device = device) = ids.count id) :
    ∃ nets, ids.foldlM (fun self netId => self.removeIncidence netId fun member => decide (member.device = device))
        self = some { self with nets } ∧ Stripped device self.nets nets := by
  induction ids generalizing self with
  | nil =>
    refine ⟨self.nets, rfl, sound, rfl, fun _ => Iff.rfl, fun id net held => ⟨net, held, rfl, ?_⟩⟩
    have none' := List.countP_eq_zero.mp (counts id net held)
    rw [List.filter_eq_self.mpr fun c member => by simpa using none' c member]
  | cons id ids ih =>
    obtain ⟨net, held⟩ := live id List.mem_cons_self
    have some' : 0 < net.terminalComponents.countP fun c => c.device = device := by
      rw [counts id net held, List.count_cons_self]
      omega
    obtain ⟨c, member, ours⟩ := List.countP_pos_iff.mp some'
    obtain ⟨removed, rest, nets, run, isOurs, perm, changed⟩ := removeIncidence_spec sound held member
      (p := fun c => decide (c.device = device)) ours
    have get : ∀ m : NetId, nets.get m =
        if m = id then some { net with terminalComponents := rest } else self.nets.get m := changed.get
    obtain ⟨nets', runs, stripped⟩ := @ih { self with nets } changed.sound (fun m there => by
        obtain ⟨value, here⟩ := live m (List.mem_cons_of_mem _ there)
        show ∃ net, nets.get m = some net
        rw [get]
        split
        · exact ⟨_, rfl⟩
        · exact ⟨value, here⟩) fun m value here => by
      have here' : nets.get m = some value := here
      rw [get] at here'
      split at here'
      · rename_i same
        obtain rfl := Option.some.inj here'
        have before := counts id net held
        rw [perm.countP_eq, List.countP_cons, if_pos isOurs, List.count_cons_self] at before
        rw [same]
        exact Nat.succ.inj before
      · rename_i different
        rw [counts m value here', List.count_cons_of_ne (Ne.symm different)]
    refine ⟨nets', ?_, stripped.sound, stripped.slots.trans changed.slots, fun m => ?_, fun m value here => ?_⟩
    · rw [List.foldlM_cons, bind_of_eq_some run]
      exact runs
    · rw [stripped.gone, get]
      split
      · rename_i same
        rw [same, held]
        simp
      · exact Iff.rfl
    · by_cases same : m = id
      · obtain rfl := Option.some.inj ((same ▸ held).symm.trans here)
        obtain ⟨net', held', wires, perm'⟩ := stripped.nets m _ ((get m).trans (if_pos same))
        refine ⟨net', held', wires, perm'.trans ?_⟩
        have dropped := perm.filter fun c => decide (c.device ≠ device)
        rw [List.filter_cons_of_neg (by simpa using isOurs)] at dropped
        exact dropped.symm
      · exact stripped.nets m value ((get m).trans ((if_neg same).trans here))

omit [F64 F] in
/-- Distinct islands are edited. -/
theorem modifyIslands_spec (edit : IslandTopology → IslandTopology) (ids : List IslandId) (nodup : ids.Nodup)
    {self : DerivedTopology} (sound : self.islands.Sound)
    (live : ∀ id ∈ ids, ∃ island, self.islands.get id = some island) :
    ∃ islands, ids.foldlM (fun self islandId => self.modifyIsland islandId edit) self =
        some { self with islands } ∧ islands.Sound ∧ islands.slotCount = self.islands.slotCount ∧
      ∀ j : IslandId, islands.get j = if j ∈ ids then (self.islands.get j).map edit else self.islands.get j := by
  induction ids generalizing self with
  | nil => exact ⟨self.islands, rfl, sound, rfl, fun j => by rw [if_neg List.not_mem_nil]⟩
  | cons id ids ih =>
    obtain ⟨fresh, nodup⟩ := List.nodup_cons.mp nodup
    obtain ⟨island, held⟩ := live id List.mem_cons_self
    obtain ⟨islands, modified, changed⟩ := DenseIdStore.modify_spec sound held edit
    obtain ⟨islands', runs, sound', slots, get⟩ := @ih nodup { self with islands } changed.sound fun j member => by
      obtain ⟨value, here⟩ := live j (List.mem_cons_of_mem _ member)
      refine ⟨value, (changed.get j).trans ?_⟩
      rw [if_neg fun same : j = id => fresh (same ▸ member)]
      exact here
    refine ⟨islands', ?_, sound', slots.trans changed.slots, fun j => ?_⟩
    · rw [List.foldlM_cons, modifyIsland, bind_of_eq_some modified]
      exact runs
    · rw [get, show ({ self with islands } : DerivedTopology).islands = islands from rfl, changed.get]
      by_cases same : j = id
      · rw [same, if_neg fresh, if_pos rfl, if_pos List.mem_cons_self, held, Option.map_some]
      · rw [if_neg same]
        simp only [List.mem_cons, same, false_or]

omit [F64 F] in
/-- The affected nets of one island. -/
theorem netsOfIsland_spec (affected : List NetId)
    (inside : ∀ id ∈ affected, id.index < self.netIslandMap.length) (island : IslandId) :
    ∃ ids, self.netsOfIsland affected island = some ids ∧
      ∀ id, id ∈ ids ↔ id ∈ affected ∧ self.islandOfNet id = some island := by
  unfold netsOfIsland
  suffices ∀ (list acc : List NetId), (∀ id ∈ list, id.index < self.netIslandMap.length) →
      ∃ ids, list.foldlM (fun (islandNets : List NetId) netId => do
        let at' ← self.netIsland netId
        if at' = some island ∧ netId ∉ islandNets then some (islandNets ++ [netId])
        else some islandNets) acc = some ids ∧
        ∀ id, id ∈ ids ↔ id ∈ acc ∨ id ∈ list ∧ self.islandOfNet id = some island by
    obtain ⟨ids, run, members⟩ := this affected [] inside
    exact ⟨ids, run, fun id => by rw [members]; simp⟩
  intro list
  induction list with
  | nil => exact fun acc _ => ⟨acc, rfl, fun id => by simp⟩
  | cons net list ih =>
    intro acc inside
    rw [List.foldlM_cons, bind_of_eq_some (netIsland_of_lt (inside net List.mem_cons_self))]
    by_cases here : self.islandOfNet net = some island ∧ net ∉ acc
    · rw [if_pos here]
      obtain ⟨ids, run, members⟩ := ih (acc ++ [net]) fun id member => inside id (List.mem_cons_of_mem _ member)
      refine ⟨ids, run, fun id => ?_⟩
      rw [members, List.mem_append, List.mem_singleton, List.mem_cons]
      constructor
      · intro there
        rcases there with (old | rfl) | later
        · exact Or.inl old
        · exact Or.inr ⟨Or.inl rfl, here.1⟩
        · exact Or.inr ⟨Or.inr later.1, later.2⟩
      · intro there
        rcases there with old | ⟨rfl | later, on⟩
        · exact Or.inl (Or.inl old)
        · exact Or.inl (Or.inr rfl)
        · exact Or.inr ⟨later, on⟩
    · rw [if_neg here]
      obtain ⟨ids, run, members⟩ := ih acc fun id member => inside id (List.mem_cons_of_mem _ member)
      refine ⟨ids, run, fun id => ?_⟩
      rw [members, List.mem_cons]
      constructor
      · intro there
        rcases there with old | later
        · exact Or.inl old
        · exact Or.inr ⟨Or.inr later.1, later.2⟩
      · intro there
        rcases there with old | ⟨rfl | later, on⟩
        · exact Or.inl old
        · by_cases listed : id ∈ acc
          · exact Or.inl listed
          · exact absurd ⟨on, listed⟩ here
        · exact Or.inr ⟨later, on⟩

/-! ### Repairing the islands one by one -/

/-- The islands in `done` are repaired. -/
structure Repairing (registry : DefinitionRegistry F) (network : Network F) (ids : List IslandId)
    (affected : List NetId) (before : DerivedTopology) (done : List IslandId) (after : DerivedTopology) :
    Prop where
  nets : after.nets = before.nets
  wireNetMap : after.wireNetMap = before.wireNetMap
  ok : IslandsOk (fun j => j ∈ ids ∧ j ∉ done) registry network after
  invalidation : InvalidationOk after
  dirtied : Dirtied before after
  slots : after.islands.slotCount =
    before.islands.slotCount + (done.map (before.newIslands (network.wiring registry))).sum
  held : ∀ j ∈ ids, j ∉ done → after.islands.get j = before.islands.get j
  marked : ∀ j ∈ done, j ∈ after.invalidation.topologyDirty ∨ after.islands.get j = none
  orphans : ∀ net k, after.islandOfNet net = some k → (∃ c, before.Touches net c) ∨ net ∈ affected

theorem repairs_spec (consistent : network.Consistent registry) (partitioned : registry.Partitioned)
    {ids : List IslandId} {affected : List NetId} (nets : NetsSound registry network self)
    (islands : IslandsOk (· ∈ ids) registry network self) (nodup : ids.Nodup)
    (live : ∀ j ∈ ids, ∃ island, self.islands.get j = some island) (invalidation : InvalidationOk self)
    (inside : ∀ net ∈ affected, ∃ value, self.nets.get net = some value)
    (orphans : ∀ net k, self.islandOfNet net = some k → (∃ c, self.Touches net c) ∨ net ∈ affected)
    {scratch : TraversalScratch} (sound : scratch.Sound) :
    Returns (IslandsShort (network.wiring registry) self ids)
      (ids.foldlM (fun (state : DerivedTopology × TraversalScratch) islandId => do
        let islandNets ← state.1.netsOfIsland affected islandId
        state.1.repairIsland registry network state.2 islandId islandNets) (self, scratch))
      fun result => ¬ IslandsShort (network.wiring registry) self ids ∧
        Repairing registry network ids affected self ids result.1 ∧ result.2.Sound := by
  refine Returns.foldlM (fun (done : List IslandId) (state : DerivedTopology × TraversalScratch) =>
    ¬ IslandsShort (network.wiring registry) self done ∧ Repairing registry network ids affected self done state.1 ∧
      state.2.Sound) ⟨by simp [IslandsShort], ⟨rfl, rfl, islands.mono fun j bad => ⟨bad, List.not_mem_nil⟩, invalidation,
      .of_same rfl rfl, rfl, fun _ _ _ => rfl, fun j member => absurd member List.not_mem_nil, orphans⟩, sound⟩ ?_
  intro done id rest state split inv
  obtain ⟨cur, scratch'⟩ := state
  obtain ⟨enough, r, sound'⟩ := inv
  dsimp only at r sound' ⊢
  have member : id ∈ ids := by rw [split]; simp
  have pending : id ∉ done := by
    rw [split] at nodup
    exact fun earlier => (List.nodup_append.mp nodup).2.2 id earlier id List.mem_cons_self rfl
  obtain ⟨island, held⟩ := live id member
  have heldCur : cur.islands.get id = some island := (r.held id member pending).trans held
  have netsCur : NetsSound registry network cur := nets.of_nets r.nets r.wireNetMap
  have touches : ∀ net c, cur.Touches net c ↔ self.Touches net c := by
    intro net c
    rw [Touches, Touches, r.nets]
  obtain ⟨list, run, members⟩ := @netsOfIsland_spec cur affected (fun net listed => by
    obtain ⟨value, there⟩ := inside net listed
    rw [r.ok.map, r.nets]
    exact nets.sound.index_lt there) id
  rw [bind_of_eq_some run]
  have repair := repairIsland_spec consistent partitioned netsCur r.ok heldCur
    (fun net listed => ((members net).mp listed).2) (fun net on => by
      rcases r.orphans net id on with ⟨c, there⟩ | listed
      · exact Or.inl ⟨c, (touches net c).mpr there⟩
      · exact Or.inr ((members net).mpr ⟨listed, on⟩)) sound'
  have left : ∀ c ∈ island.components, (network.wiring registry).resident c.device = true := by
    intro c inIsland
    obtain ⟨row, found⟩ := islands.beside.record_of_islandOf (islands.members id island held c inIsland)
    exact Option.isSome_iff_exists.mpr ⟨row, found⟩
  have unused : cur.islands.unused =
      self.islands.unused - (done.map (self.newIslands (network.wiring registry))).sum := by
    rw [DenseIdStore.unused, r.slots, DenseIdStore.unused]
    omega
  have short := @islandsShort_concat self (network.wiring registry) done id island held left
  rw [← unused] at short
  refine repair.mono (fun few => ?_) fun result post => ?_
  · rw [split, List.append_cons]
    exact (short.mpr (Or.inr few)).more
  obtain ⟨fits, repaired, sound''⟩ := post
  obtain ⟨dirtied, ok, marked⟩ := repaired.dirtied r.invalidation r.ok.sound heldCur
  refine ⟨fun few => (short.mp few).elim enough fits, ⟨repaired.nets.trans r.nets, repaired.wireNetMap.trans r.wireNetMap, ?_, ok,
    r.dirtied.trans islands.sound invalidation dirtied, ?_, fun j inIds later => ?_, fun j earlier => ?_,
    fun net k on => ?_⟩, sound''⟩
  · refine repaired.ok.mono fun j bad => ⟨bad.1.1, fun listed => ?_⟩
    rcases List.mem_append.mp listed with before | here
    · exact bad.1.2 before
    · exact bad.2 (List.mem_singleton.mp here)
  · rw [repaired.slots, r.slots, List.map_append, List.sum_append, List.map_singleton, List.sum_singleton,
      newIslands, held, Option.map_some, Option.getD_some, leftIsland_eq left, Nat.add_assoc]
  · rw [List.mem_append, not_or, List.mem_singleton] at later
    have before := r.held j inIds later.1
    obtain ⟨value, there⟩ := live j inIds
    rw [repaired.others j later.2 (by rw [before, there]; simp), before]
  · rcases List.mem_append.mp earlier with before | here
    · rcases r.marked j before with dirty | gone
      · cases now : result.1.islands.get j with
        | none => exact Or.inr rfl
        | some value =>
          left
          by_contra off
          exact (dirtied.clean j value now off).1 dirty
      · right
        obtain ⟨value, there⟩ := live j (by rw [split]; exact List.mem_append_left _ before)
        cases now : result.1.islands.get j with
        | none => rfl
        | some value' =>
          have := dirtied.fresh j value' now gone
          have := islands.sound.index_lt there
          have := r.dirtied.slots
          omega
    · rw [List.mem_singleton.mp here]
      exact marked
  · by_cases here : cur.islandOfNet net = some id
    · exact r.orphans net id here
    · exact r.orphans net k ((repaired.outside (.net net) here).symm.trans on)

omit [F64 F] in
/-- Islands that were edited without a mark are marked in the end. -/
theorem Dirtied.of_edited {mid after : DerivedTopology} {ids : List IslandId} (h : Dirtied mid after)
    (slots : mid.islands.slotCount = self.islands.slotCount) (invalidation : mid.invalidation = self.invalidation)
    (gone : ∀ j : IslandId, mid.islands.get j = none ↔ self.islands.get j = none)
    (others : ∀ j, j ∉ ids → mid.islands.get j = self.islands.get j)
    (marked : ∀ j ∈ ids, j ∈ after.invalidation.topologyDirty ∨ after.islands.get j = none) :
    Dirtied self after := by
  refine ⟨slots ▸ h.slots, fun j island held dead => ?_, fun j island held off => ?_, fun j member => ?_,
    fun j member => ?_, fun j member => ?_, fun j island held dead => ?_⟩
  · rw [← slots]
    exact h.fresh j island held ((gone j).mpr dead)
  · have outside : j ∉ ids := by
      intro member
      rcases marked j member with dirty | none'
      · exact off dirty
      · rw [none'] at held
        simp at held
    obtain ⟨clean, old, before, components⟩ := h.clean j island held off
    exact ⟨invalidation ▸ clean, old, (others j outside).symm.trans before, components⟩
  · exact h.numerical j (invalidation ▸ member)
  · exact h.binding j (invalidation ▸ member)
  · exact h.retired j (invalidation ▸ member)
  · cases there : mid.islands.get j with
    | none =>
      rw [(gone j).mp there] at held
      simp at held
    | some value => exact h.gone j value there dead

/-! ### The removal -/

theorem prepareDeviceRemoval_spec (beside : Beside registry network self) {islands : List IslandId}
    (found : self.islandsOf network device = some islands) :
    self.prepareDeviceRemoval network device = some
      ⟨self.deviceNets network device, islands.foldl WorldInvalidation.pushNew []⟩ := by
  obtain ⟨loc, chunk, located, hc, shaped, read, -⟩ := beside.site found
  unfold prepareDeviceRemoval
  dsimp only
  rw [bind_of_eq_some (Network.locationOf_some located), bind_of_eq_some hc, DeviceTopologyChunk.rowIslands_eq shaped,
    bind_of_eq_some read]

omit [F64 F] in
/-- The nets without the device. -/
theorem Stripped.nets_ok {mid : DerivedTopology} (s : Stripped device self.nets mid.nets)
    (h : NetsSound registry network self) (wires : mid.wireNetMap = self.wireNetMap)
    {row : DeviceRow F} {loc : Loc} {chunk : DeviceChunk F} {result : DeviceRemoveResult}
    (removed : Network.DeviceRemoved registry network network' device row loc chunk result) :
    NetsSound registry network' mid := by
  refine h.relisted removed.wires.live (fun u v => ?_) s.sound wires (fun id net held => ?_) (fun id net held => ?_)
    fun id net held other => ?_
  · rw [Network.WireEdge, removed.lists, Isolate]
    have apart : ∀ wire, ¬ Network.OfDevice device (.wire wire) := by
      intro wire there
      obtain ⟨_, _, same⟩ := there
      cases same
    exact ⟨And.left, fun edge => ⟨edge, apart u, apart v⟩⟩
  · obtain ⟨old, before, same, -⟩ := s.back held
    exact ⟨old, before, same⟩
  · obtain ⟨value, now, same, -⟩ := s.nets id net held
    exact ⟨value, now, same⟩
  · obtain ⟨old, before, -, perm⟩ := s.back held
    refine (perm.filter _).trans ?_
    rw [List.filter_filter]
    by_cases same : other = device
    · have nothing : old.terminalComponents.filter
          (fun c => decide (c.device = other) && decide (c.device ≠ device)) = [] := by
        rw [List.filter_eq_nil_iff]
        intro c _
        simp [same]
      rw [nothing, Network.incidences_of_free fun t => by
        rw [Network.attachedWire, same, show network'.record device = none from removed.removed.removed]
        rfl]
    · have kept : old.terminalComponents.filter
          (fun c => decide (c.device = other) && decide (c.device ≠ device)) =
          old.terminalComponents.filter fun c => c.device = other := by
        apply List.filter_congr
        intro c _
        by_cases here : c.device = other
        · simp [here, same]
        · simp [here]
      rw [kept, Network.incidences_of_record (show network'.record other = network.record other from
        removed.removed.kept other same)]
      exact h.terminals id old not_false before other

theorem removeDevice_maintains (partitioned : registry.Partitioned) (h : Maintained registry network self)
    {row : DeviceRow F} {loc : Loc} {chunk : DeviceChunk F} {result : DeviceRemoveResult}
    (consistent : network'.Consistent registry)
    (removed : Network.DeviceRemoved registry network network' device row loc chunk result)
    {scratch : TraversalScratch} (sound : scratch.Sound) :
    ∃ prepared, self.prepareDeviceRemoval network device = some prepared ∧
      Returns (IslandsShort (network'.wiring registry) self prepared.affectedIslands)
        (self.removeDevice registry network' scratch device prepared result) fun result =>
          ¬ IslandsShort (network'.wiring registry) self prepared.affectedIslands ∧
            Maintains registry network network' self result.1 ∧ result.2.Sound := by
  obtain ⟨islands, found⟩ := h.islands.beside.islandsOf_isSome removed.found
  obtain ⟨nodup, members⟩ := foldl_pushNew islands [] List.nodup_nil
  have prepare := prepareDeviceRemoval_spec h.islands.beside found
  generalize listed : islands.foldl WorldInvalidation.pushNew [] = ids at nodup members prepare
  have inIds : ∀ c j, c.device = device → self.islandOf network c = some j → j ∈ ids := by
    intro c j ours on
    obtain ⟨islands', row', read⟩ := Option.bind_eq_some_iff.mp on
    rw [ours] at row'
    obtain rfl := Option.some.inj (found.symm.trans row')
    exact (members j).mpr (Or.inr (List.mem_of_getElem? read))
  have live : ∀ j ∈ ids, ∃ island, self.islands.get j = some island := by
    intro j member
    rcases (members j).mp member with never | member
    · exact absurd never List.not_mem_nil
    · obtain ⟨-, island, -, held⟩ := h.live_of_islandsOf partitioned found member
      exact ⟨island, held⟩
  have affectedNets := @deviceNets_eq F registry network self device _ h.consistent row removed.found
  have mem_affected : ∀ id, id ∈ self.deviceNets network device ↔
      ∃ t wire, network.attachedWire device t = some wire ∧ self.wireNet wire = some id := by
    intro id
    rw [affectedNets, List.mem_filterMap]
    constructor
    · intro there
      obtain ⟨t, -, on⟩ := there
      obtain ⟨wire, attached, on⟩ := Option.bind_eq_some_iff.mp on
      exact ⟨t, wire, attached, on⟩
    · intro there
      obtain ⟨t, wire, attached, on⟩ := there
      exact ⟨t, List.mem_range.mpr (Network.lt_of_attachedWire attached), by rw [attached, Option.bind_some, on]⟩
  have liveNets : ∀ id ∈ self.deviceNets network device, ∃ net, self.nets.get id = some net := by
    intro id member
    obtain ⟨t, wire, attached, on⟩ := (mem_affected id).mp member
    obtain ⟨net, held, -⟩ := h.nets.named wire id on
    exact ⟨net, held⟩
  -- the three edits before the repairs
  obtain ⟨nets, runNets, stripped⟩ := removeIncidences_spec device (self.deviceNets network device) h.nets.sound
    liveNets fun id net held => by
      rw [affectedNets, count_deviceNets h.consistent partitioned removed.found,
        ← (h.nets.terminals id net not_false held device).length_eq, List.countP_eq_length_filter]
  obtain ⟨edited, runIslands, soundIslands, slots, get⟩ := @modifyIslands_spec
    (fun island => { island with components := island.components.filter fun c => c.device ≠ device }) ids nodup
    { self with nets } h.islands.sound live
  obtain ⟨chunks, runRow, aligned, gone, kept⟩ := Sidecar.Aligned.removed h.islands.beside.aligned
    h.islands.beside.arena removed.located removed.inArena removed.removed
  let mid : DerivedTopology := { self with nets, islands := edited, deviceChunks := chunks }
  have get : ∀ j : IslandId, mid.islands.get j = if j ∈ ids then (self.islands.get j).map fun island =>
      { island with components := island.components.filter fun c => c.device ≠ device } else self.islands.get j := get
  have netsOk : NetsSound registry network' mid :=
    (show Stripped device self.nets mid.nets from stripped).nets_ok h.nets rfl removed
  have touches : ∀ id c, mid.Touches id c ↔ self.Touches id c ∧ c.device ≠ device := by
    intro id c
    constructor
    · intro there
      obtain ⟨net', held', member⟩ := there
      obtain ⟨net, held, -, perm⟩ := stripped.back held'
      obtain ⟨member, other⟩ := List.mem_filter.mp (perm.mem_iff.mp member)
      exact ⟨⟨net, held, member⟩, of_decide_eq_true other⟩
    · intro there
      obtain ⟨⟨net, held, member⟩, other⟩ := there
      obtain ⟨net', held', -, perm⟩ := stripped.nets id net held
      exact ⟨net', held', perm.mem_iff.mpr (List.mem_filter.mpr ⟨member, decide_eq_true other⟩)⟩
  have components : ∀ c, c.device ≠ device → mid.islandOf network' c = self.islandOf network c := by
    intro c other
    exact congrArg (·.bind fun islands : List IslandId => islands[c.partition.index]?) (kept c.device other)
  have islandsOk : IslandsOk (· ∈ ids) registry network' mid := by
    refine IslandsOk.lessened (fun c => c.device = device) h.islands soundIslands ⟨consistent.arena, aligned⟩ ?_
      (fun id none' => (stripped.gone id).mp none') (fun _ => rfl) components (fun c ours => ?_)
      (fun j island held => ?_) (fun j old held => ?_) (fun id c there => (touches id c).mp there)
      (fun id c there other _ => (touches id c).mpr ⟨there, other⟩) fun c j ours on => inIds c j ours on
    · exact h.islands.map.trans stripped.slots.symm
    · obtain ⟨d, p⟩ := c
      cases ours
      exact congrArg (·.bind fun islands : List IslandId => islands[p.index]?) gone
    · rw [get] at held
      split at held
      · obtain ⟨old, before, rfl⟩ := Option.map_eq_some_iff.mp held
        exact ⟨old, before, List.filter_sublist, fun c => by simp⟩
      · rename_i outside
        refine ⟨island, held, .refl _, fun c => ⟨fun member => ⟨member, fun ours => outside ?_⟩, And.left⟩⟩
        exact inIds c j ours (h.islands.members j island held c member)
    · rw [get, held]
      split
      · exact ⟨_, rfl⟩
      · exact ⟨old, rfl⟩
  have invalidation : InvalidationOk mid := by
    have alive : ∀ j, (∃ island, self.islands.get j = some island) → ∃ island, mid.islands.get j = some island := by
      intro j there
      obtain ⟨island, held⟩ := there
      rw [get, held]
      split
      · exact ⟨_, rfl⟩
      · exact ⟨island, rfl⟩
    refine ⟨fun j member => alive j (h.invalidation.topologyDirty j member),
      fun j member => alive j (h.invalidation.numericalDirty j member),
      fun j member => alive j (h.invalidation.bindingDirty j member), fun j member => ?_⟩
    obtain ⟨dead, inside⟩ := h.invalidation.retired j member
    refine ⟨?_, slots ▸ inside⟩
    rw [get, dead]
    split <;> rfl
  have sizes : ∀ j island, self.islands.get j = some island → ∃ after, mid.islands.get j = some after ∧
      leftIsland (network'.wiring registry) after = leftIsland (network'.wiring registry) island := by
    intro j island held
    rw [get, held]
    split
    · refine ⟨_, rfl, ?_⟩
      rw [leftIsland, leftIsland, List.filter_filter]
      congr 1
      apply List.filter_congr
      intro c _
      by_cases ours : c.device = device
      · have gone' : (network'.wiring registry).resident c.device = false := by
          show (network'.record c.device).isSome = false
          rw [ours, show network'.record device = none from removed.removed.removed]
          rfl
        simp [gone']
      · simp [ours]
    · exact ⟨island, rfl, rfl⟩
  have short : IslandsShort (network'.wiring registry) mid ids ↔ IslandsShort (network'.wiring registry) self ids := by
    have unused : mid.islands.unused = self.islands.unused := congrArg (DenseId.limit .island - ·) slots
    have same : ids.map (mid.newIslands (network'.wiring registry)) = ids.map (self.newIslands (network'.wiring registry)) := by
      apply List.map_congr_left
      intro j member
      obtain ⟨island, held⟩ := live j member
      obtain ⟨after, held', left⟩ := sizes j island held
      rw [newIslands, newIslands, held, held', Option.map_some, Option.map_some, left]
    rw [IslandsShort, IslandsShort, unused, same]
    refine or_congr Iff.rfl (exists_congr fun j => and_congr_right fun member => ?_)
    obtain ⟨island, held⟩ := live j member
    obtain ⟨after, held', left⟩ := sizes j island held
    have revision := congrArg IslandTopology.revision left
    change after.revision = island.revision at revision
    simp only [held, held', Option.some.injEq, exists_eq_left', left, revision]
  refine ⟨_, prepare, ?_⟩
  unfold removeDevice
  dsimp only
  rw [bind_of_eq_some runNets, bind_of_eq_some runIslands, removeDeviceRow,
    bind_of_eq_some (show Sidecar.removeRow self.deviceChunks result = some chunks from runRow), bind_of_eq_some rfl]
  refine (@repairs_spec F registry network' mid _ consistent partitioned ids (self.deviceNets network device) netsOk
    islandsOk nodup (fun j member => ?_) invalidation (fun id member => ?_) (fun net k on => ?_) scratch sound).mono
    short.mp fun result post => ?_
  · obtain ⟨island, held⟩ := live j member
    obtain ⟨after, held', -⟩ := sizes j island held
    exact ⟨after, held'⟩
  · obtain ⟨net, held⟩ := liveNets id member
    obtain ⟨net', held', -⟩ := stripped.nets id net held
    exact ⟨net', held'⟩
  · obtain ⟨c, there⟩ := h.islands.anchored net k not_false on
    by_cases ours : c.device = device
    · obtain ⟨value, held, member⟩ := there
      obtain ⟨t, wire, definition, attached, onNet, -⟩ :=
        (touches_iff h.nets not_false held c).mp ⟨value, held, member⟩
      exact Or.inr ((mem_affected net).mpr ⟨t, wire, ours ▸ attached, onNet⟩)
    · exact Or.inl ⟨c, (touches net c).mpr ⟨there, ours⟩⟩
  obtain ⟨enough, repaired, sound'⟩ := post
  refine ⟨fun few => enough (short.mpr few), ?_⟩
  have dirtied : Dirtied self result.1 := repaired.dirtied.of_edited slots rfl (fun j => by
      rw [get]
      split
      · rw [Option.map_eq_none_iff]
      · exact Iff.rfl) (fun j outside => by rw [get, if_neg outside]) repaired.marked
  refine ⟨⟨⟨consistent, netsOk.of_nets repaired.nets repaired.wireNetMap,
    repaired.ok.mono fun j both => both.2 both.1, repaired.invalidation⟩, dirtied, fun j island held off c member => ?_⟩,
    sound'⟩
  obtain ⟨-, old, before, components'⟩ := dirtied.clean j island held off
  have on := h.islands.members j old before c (components' ▸ member)
  have other : c.device ≠ device := by
    intro ours
    rcases repaired.marked j (inIds c j ours on) with dirty | none'
    · exact off dirty
    · rw [none'] at held
      simp at held
  have record : network'.record c.device = network.record c.device := removed.removed.kept c.device other
  refine ⟨by rw [Network.definitionIdAt, Network.definitionIdAt, record], fun definition t _ _ => ?_⟩
  rw [netAt, netAt, Network.attachedWire, Network.attachedWire, record]
  congr 1
  funext wire
  rw [wireNet, wireNet, repaired.wireNetMap]

end DerivedTopology

end Hynergy
