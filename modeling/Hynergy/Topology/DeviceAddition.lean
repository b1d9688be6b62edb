import Hynergy.Topology.Maintained

/-!
# Adding a device

Every partition of a new device gets an island of its own; no net reaches it yet.
-/

namespace Hynergy

open Lib Relation

variable {F : Type}

namespace Network

variable {registry : DefinitionRegistry F} {self next : Network F} [F64 F] {id : DeviceId}
  {definitionId : DefinitionId} {definition : DeviceDefinition F} {result : DeviceInsertResult}

/-- A new device is attached to nothing. -/
theorem DeviceAdded.attachedWire (h : DeviceAdded registry self next id definitionId definition result)
    (device : DeviceId) (t : Nat) : next.attachedWire device t = self.attachedWire device t := by
  by_cases same : device = id
  · subst same
    rw [Network.attachedWire, show next.record device = _ from h.inserted.added, Network.attachedWire, h.free,
      Option.bind_some, Option.bind_none]
    simp only [DeviceArena.newRow, List.getElem?_replicate]
    split <;> rfl
  · rw [Network.attachedWire, Network.attachedWire,
      show next.record device = self.record device from h.inserted.kept device same]

end Network

namespace DerivedTopology

variable {registry : DefinitionRegistry F} {network network' : Network F} {self next : DerivedTopology}
  {device : DeviceId}

/-! ### The islands of the partitions -/

/-- The partitions so far have islands of their own. -/
structure RowPushed (device : DeviceId) (before : DenseIdStore .island IslandTopology)
    (invalidation : WorldInvalidation) (count : Nat)
    (after : DenseIdStore .island IslandTopology × WorldInvalidation × List IslandId) : Prop where
  sound : after.1.Sound
  slots : after.1.slotCount = before.slotCount + count
  length : after.2.2.length = count
  single : ∀ (p : DevicePartitionId) (j : IslandId), after.2.2[p.index]? = some j →
    after.1.get j = some { components := [⟨device, p⟩], revision := 0 } ∧ j.index = before.slotCount + p.index
  others : ∀ j : IslandId, j ∉ after.2.2 → after.1.get j = before.get j
  marks : after.2.1 = after.2.2.foldl WorldInvalidation.markTopologyDirty invalidation

theorem pushComponents_spec {islands : DenseIdStore .island IslandTopology} (sound : islands.Sound)
    (device : DeviceId) (invalidation : WorldInvalidation) {count : Nat} (bounded : count ≤ 2 ^ 16) :
    Returns (DenseId.limit .island < islands.slotCount + count)
      ((List.range count).foldlM (pushComponent device) (islands, invalidation, []))
      (RowPushed device islands invalidation count) := by
  suffices Returns (DenseId.limit .island < islands.slotCount + count)
      ((List.range count).foldlM (pushComponent device) (islands, invalidation, []))
      (RowPushed device islands invalidation (List.range count).length) by rwa [List.length_range] at this
  refine Returns.foldlM (fun done => RowPushed device islands invalidation done.length) ?_ ?_
  · exact ⟨sound, rfl, rfl, fun p j read => by simp at read, fun j _ => rfl, rfl⟩
  · intro done p rest state split pushed
    obtain ⟨store, inv, row⟩ := state
    have position : p = done.length := by
      have read : (List.range count)[done.length]? = some p := by
        rw [split, List.getElem?_append_right (Nat.le_refl _), Nat.sub_self]
        rfl
      obtain ⟨inside, value⟩ := List.getElem?_eq_some_iff.mp read
      simpa using value.symm
    have inside : p < count := by
      have := congrArg List.length split
      simp only [List.length_range, List.length_append, List.length_cons] at this
      omega
    have fits : p < IdKind.partition.bound := Nat.lt_of_lt_of_le inside bounded
    have partition : (Id.ofIndex? p : Option DevicePartitionId) = some ⟨p, fits⟩ := Id.ofIndex?_eq_some.mpr rfl
    unfold pushComponent
    dsimp only
    rw [bind_of_eq_some partition]
    refine ((DenseIdStore.insert_returns pushed.sound _).mono (fun full => ?_) fun _ post => post).bind
      fun result grown => ?_
    · have slots : store.slotCount = islands.slotCount + done.length := pushed.slots
      unfold DenseIdStore.unused at full
      dsimp only at full
      omega
    obtain ⟨island, store'⟩ := result
    obtain ⟨-, grown⟩ := grown
    dsimp only at grown ⊢
    have slots : store.slotCount = islands.slotCount + done.length := pushed.slots
    have length : row.length = done.length := pushed.length
    have unlisted : island ∉ row := by
      intro member
      obtain ⟨k, read⟩ := List.mem_iff_getElem?.mp member
      have small : k < IdKind.partition.bound := by
        have := (List.getElem?_eq_some_iff.mp read).1
        omega
      have held := (pushed.single ⟨k, small⟩ island read).1
      rw [show store.get island = none from grown.fresh] at held
      simp at held
    refine ⟨grown.sound, ?_, ?_, fun q j read => ?_, fun j missing => ?_, ?_⟩
    · rw [grown.slots, slots, List.length_append, List.length_singleton]
      omega
    · rw [List.length_append, List.length_append, length]
      rfl
    · rw [List.getElem?_append] at read
      split at read
      · obtain ⟨held, index⟩ := pushed.single q j read
        refine ⟨(grown.get j).trans ?_, index⟩
        rw [if_neg fun same : j = island => unlisted (same ▸ List.mem_of_getElem? read)]
        exact held
      · have last := (List.getElem?_eq_some_iff.mp read).1
        rw [List.length_singleton] at last
        have here : q.index = p := by omega
        have isNew : j = island := by
          rw [show q.index - row.length = 0 by omega] at read
          exact (Option.some.inj read).symm
        rw [isNew]
        have same : q = ⟨p, fits⟩ := Id.ext' here
        rw [same]
        exact ⟨(grown.get island).trans (if_pos rfl), by rw [grown.slot, slots, ← position]⟩
    · rw [List.mem_append, not_or, List.mem_singleton] at missing
      exact (grown.get j).trans ((if_neg missing.2).trans (pushed.others j missing.1))
    · rw [List.foldl_append]
      exact congrArg (WorldInvalidation.markTopologyDirty · island) pushed.marks

/-- The topology with the row of the new device. -/
theorem pushDeviceRow_spec (sound : self.islands.Sound) (device : DeviceId) (location : DeviceLocation)
    {side : DeviceTopologyChunk} (held : self.deviceChunks[location.chunkIndex]? = some side)
    (shaped : side.Shaped) (room : side.rowCount < deviceChunkRows) (bounded : side.partitionCount ≤ 2 ^ 16) :
    Returns (DenseId.limit .island < self.islands.slotCount + side.partitionCount)
      (self.pushDeviceRow device location) fun next => ∃ store invalidation row pushed,
        next = { self with islands := store, invalidation, deviceChunks := self.deviceChunks.set location.chunkIndex pushed } ∧
        RowPushed device self.islands self.invalidation side.partitionCount (store, invalidation, row) ∧
        pushed.Shaped ∧ pushed.rows = side.rows ++ [row] ∧ pushed.partitionCount = side.partitionCount := by
  unfold pushDeviceRow
  rw [bind_of_eq_some held]
  refine (pushComponents_spec sound device self.invalidation bounded).bind fun state pushed => ?_
  obtain ⟨store, invalidation, row⟩ := state
  obtain ⟨chunk, run, shaped', rows, stride, -⟩ :=
    DeviceTopologyChunk.pushRowIter_spec shaped room (show row.length = side.partitionCount from pushed.length)
  refine Returns.of_eq_some ?_ ⟨store, invalidation, row, chunk, rfl, pushed, shaped', rows, stride⟩
  dsimp only
  rw [bind_of_eq_some run]

/-! ### The topology of the larger network -/

variable [F64 F]

/-- The new device's partitions are islands of their own; everything else is as it was. -/
theorem maintains_added (h : Maintained registry network self)
    {definitionId : DefinitionId} {definition : DeviceDefinition F} {result : DeviceInsertResult}
    (consistent : network'.Consistent registry)
    (added : Network.DeviceAdded registry network network' device definitionId definition result)
    {store : DenseIdStore .island IslandTopology} {invalidation : WorldInvalidation} {row : List IslandId}
    (pushed : RowPushed device self.islands self.invalidation definition.partitionCount (store, invalidation, row))
    (bounded : definition.partitionCount ≤ 2 ^ 16) {chunks : List DeviceTopologyChunk}
    (aligned : Sidecar.Aligned (partitionCountOf registry) chunks network'.deviceArena)
    (ours : Sidecar.rowOf chunks network'.deviceArena device = some row)
    (kept : ∀ other, other ≠ device → Sidecar.rowOf chunks network'.deviceArena other =
      Sidecar.rowOf self.deviceChunks network.deviceArena other) :
    Maintains registry network network' self
      { self with islands := store, invalidation, deviceChunks := chunks } := by
  have slots : store.slotCount = self.islands.slotCount + definition.partitionCount := pushed.slots
  have length : row.length = definition.partitionCount := pushed.length
  let next : DerivedTopology := { self with islands := store, invalidation, deviceChunks := chunks }
  -- the ids of the row, and what they name
  have ofRow : ∀ j ∈ row, ∃ p : DevicePartitionId, row[p.index]? = some j ∧
      store.get j = some { components := [⟨device, p⟩], revision := 0 } ∧
      j.index = self.islands.slotCount + p.index := by
    intro j member
    obtain ⟨k, read⟩ := List.mem_iff_getElem?.mp member
    have small : k < IdKind.partition.bound := by
      have := (List.getElem?_eq_some_iff.mp read).1
      exact Nat.lt_of_lt_of_le (by omega) bounded
    exact ⟨⟨k, small⟩, read, pushed.single ⟨k, small⟩ j read⟩
  have fresh : ∀ j ∈ row, self.islands.get j = none := by
    intro j member
    obtain ⟨p, -, -, index⟩ := ofRow j member
    cases old : self.islands.get j with
    | none => rfl
    | some island =>
      have := h.islands.sound.index_lt old
      omega
  have keptIsland : ∀ j island, self.islands.get j = some island → j ∉ row ∧ store.get j = some island := by
    intro j island held
    have missing : j ∉ row := by
      intro member
      rw [fresh j member] at held
      simp at held
    exact ⟨missing, (pushed.others j missing).trans held⟩
  -- the labels
  have elsewhere : ∀ c : DeviceComponent, c.device ≠ device → next.islandOf network' c = self.islandOf network c := by
    intro c other
    exact congrArg (·.bind fun islands : List IslandId => islands[c.partition.index]?) (kept c.device other)
  have own : ∀ p, next.islandOf network' ⟨device, p⟩ = row[p.index]? := by
    intro p
    exact congrArg (·.bind fun islands : List IslandId => islands[p.index]?) ours
  have before : ∀ c j, self.islandOf network c = some j → c.device ≠ device := by
    intro c j on same
    obtain ⟨row', found⟩ := h.islands.beside.record_of_islandOf on
    rw [same, added.free] at found
    simp at found
  have label : ∀ v j, next.islandLabel network' v = some j → self.islandLabel network v = some j ∨
      ∃ p, v = .component ⟨device, p⟩ ∧ row[p.index]? = some j := by
    intro v j on
    cases v with
    | net m => exact Or.inl on
    | component c =>
      by_cases same : c.device = device
      · obtain ⟨d, p⟩ := c
        cases same
        exact Or.inr ⟨p, rfl, (own p).symm.trans on⟩
      · exact Or.inl ((elsewhere c same).symm.trans on)
  have oldLabel : ∀ v j, self.islandLabel network v = some j → next.islandLabel network' v = some j := by
    intro v j on
    cases v with
    | net m => exact on
    | component c => exact (elsewhere c (before c j on)).trans on
  have aliveOld : ∀ v j, self.islandLabel network v = some j → ∃ island, self.islands.get j = some island := by
    intro v j on
    cases v with
    | net m => exact h.islands.alive m j on
    | component c =>
      obtain ⟨island, held, -⟩ := h.islands.named c j on
      exact ⟨island, held⟩
  have same : ∀ d t, network'.attachedWire d t = network.attachedWire d t := added.attachedWire
  have record : ∀ other, other ≠ device → network'.record other = network.record other := added.inserted.kept
  have definitions : ∀ other, other ≠ device → network'.definitionIdAt other = network.definitionIdAt other := by
    intro other different
    rw [Network.definitionIdAt, Network.definitionIdAt, record other different]
  have islands : IslandsSound registry network' next := by
    have undirected := h.islands.undirected
    refine ⟨pushed.sound, ⟨consistent.arena, aligned⟩, h.islands.map, h.islands.removed, fun m j on => ?_,
      fun c j on => ?_, fun j island held => ?_, fun j island held c member => ?_, fun j island _ held => ?_,
      h.islands.anchored, h.islands.reached, fun u v step => ?_, fun j _ u v hu hv hui hvi => ?_⟩
    · obtain ⟨island, held⟩ := h.islands.alive m j on
      exact ⟨island, (keptIsland j island held).2⟩
    · rcases label (.component c) j on with old | ⟨p, e, read⟩
      · obtain ⟨island, held, member⟩ := h.islands.named c j old
        exact ⟨island, (keptIsland j island held).2, member⟩
      · cases e
        exact ⟨_, (pushed.single p j read).1, List.mem_singleton.mpr rfl⟩
    · by_cases member : j ∈ row
      · obtain ⟨p, -, value, -⟩ := ofRow j member
        obtain rfl := Option.some.inj (value.symm.trans held)
        exact List.nodup_singleton _
      · exact h.islands.nodup j island ((pushed.others j member).symm.trans held)
    · by_cases inRow : j ∈ row
      · obtain ⟨p, read, value, -⟩ := ofRow j inRow
        obtain rfl := Option.some.inj (value.symm.trans held)
        rw [List.mem_singleton.mp member]
        exact (own p).trans read
      · exact oldLabel (.component c) j
          (h.islands.members j island ((pushed.others j inRow).symm.trans held) c member)
    · by_cases inRow : j ∈ row
      · obtain ⟨p, -, value, -⟩ := ofRow j inRow
        obtain rfl := Option.some.inj (value.symm.trans held)
        simp
      · exact h.islands.nonempty j island not_false ((pushed.others j inRow).symm.trans held)
    · have step' : self.Attached u v := step
      obtain ⟨j, on⟩ := Option.ne_none_iff_exists'.mp (undirected.left step')
      rw [oldLabel u j on, oldLabel v j ((h.islands.coarse u v step').symm.trans on)]
    · rcases label u j hui with oldU | ⟨p, rfl, readP⟩
      · rcases label v j hvi with oldV | ⟨q, rfl, readQ⟩
        · exact h.islands.exact j not_false u v (by rw [InIsland, oldU]; simp) (by rw [InIsland, oldV]; simp)
            oldU oldV
        · obtain ⟨island, held⟩ := aliveOld u j oldU
          exact absurd (List.mem_of_getElem? readQ) (keptIsland j island held).1
      · rcases label v j hvi with oldV | ⟨q, rfl, readQ⟩
        · obtain ⟨island, held⟩ := aliveOld v j oldV
          exact absurd (List.mem_of_getElem? readP) (keptIsland j island held).1
        · have indexP := (pushed.single p j readP).2
          have indexQ := (pushed.single q j readQ).2
          obtain rfl := Id.ext' (show p.id = q.id by
            have : p.index = q.index := by omega
            exact this)
          exact .refl
  have nets : NetsSound registry network' next := by
    have live : ∀ wire, (network'.wireSlot wire).isSome = (network.wireSlot wire).isSome := by
      intro wire
      rw [Network.wireSlot, Network.wireSlot, added.wires]
    refine h.nets.relisted live (fun u v => added.lists _ _) h.nets.sound rfl (fun m net held => ⟨net, held, rfl⟩)
      (fun m old held => ⟨old, held, rfl⟩) fun m net held other => ?_
    have now := h.nets.terminals m net not_false held other
    by_cases different : other = device
    · have free : ∀ t, network.attachedWire other t = none := by
        intro t
        rw [Network.attachedWire, different, added.free]
        rfl
      rw [Network.incidences_of_free free] at now
      rw [Network.incidences_of_free fun t => (same other t).trans (free t)]
      exact now
    · rw [Network.incidences_of_record (record other different)]
      exact now
  obtain ⟨dirtied, ok, dirty⟩ := @dirtied_of_marks self next h.invalidation row (by
      show self.islands.slotCount ≤ store.slotCount
      omega)
    (fun j member _ => by
      obtain ⟨p, -, -, index⟩ := ofRow j member
      omega) (fun j member => by
      obtain ⟨p, -, value, -⟩ := ofRow j member
      exact ⟨_, value⟩) pushed.others pushed.marks
  refine ⟨⟨consistent, nets, islands, ok⟩, dirtied, fun j island held off c member => ?_⟩
  obtain ⟨-, old, before', components⟩ := dirtied.clean j island held off
  have on := h.islands.members j old before' c (components ▸ member)
  exact .of_elsewhere h (definitions _ (before c j on)) (fun t free => (same c.device t).trans free)
    fun t wire m attached onNet _ => ⟨(same c.device t).trans attached, onNet⟩

theorem addDevice_maintains (partitioned : registry.Partitioned) (h : Maintained registry network self)
    {prepared : PreparedDeviceInsert F} {definition : DeviceDefinition F}
    (ready : Network.Ready registry network prepared definition) :
    Returns (self.islands.unused < definition.partitionCount) (self.prepareAddDevice definition prepared)
      fun ours => definition.partitionCount ≤ self.islands.unused ∧
        ∀ result network', network'.Consistent registry →
          Network.DeviceAdded registry network network' prepared.device prepared.definitionId definition result →
          result.location = prepared.location → result.createdChunk = prepared.createdChunk →
            Returns False (self.commitAddDevice prepared.device ours result)
              (Maintains registry network network' self) := by
  have wide := partitionCountOf_known ready.known
  have bounded := (partitioned _ _ ready.known).bounded
  have limit : DenseId.limit .island = 2 ^ 32 - 1 := rfl
  have given := h.islands.sound.bounded
  have aligned := h.islands.beside.aligned
  unfold prepareAddDevice
  refine ((DenseIdStore.reserve_returns _).mono (fun full => ?_) fun _ post => post).bind fun _ lasts => ?_
  · unfold DenseIdStore.unused DenseIdStore.slotCount at *
    omega
  have lasts : definition.partitionCount ≤ self.islands.unused := by
    unfold DenseIdStore.unused DenseIdStore.slotCount at *
    omega
  have never : ∀ {side : DeviceTopologyChunk}, side.partitionCount = definition.partitionCount →
      DenseId.limit .island < self.islands.slotCount + side.partitionCount → False := by
    intro side stride full
    unfold DenseIdStore.unused DenseIdStore.slotCount at *
    omega
  rcases ready.prepared.place with ⟨created, chunk, hc, defined, len, room⟩ | ⟨created, location, -, -⟩
  · obtain ⟨side, hside, shaped, stride, count⟩ := aligned.beside hc
    have stride : side.partitionCount = definition.partitionCount := by
      rw [← wide, ← defined]
      exact stride
    have count : side.rowCount = chunk.len := count
    rw [if_neg (by simp [created]), bind_of_eq_some hside, if_pos ⟨stride, count.trans len⟩]
    refine Returns.of_eq_some rfl ⟨lasts, fun result network' consistent added same sameChunk => ?_⟩
    unfold commitAddDevice
    rw [if_neg (by simp [sameChunk, created]), bind_of_eq_some rfl, same]
    refine ((@pushDeviceRow_spec self h.islands.sound prepared.device prepared.location side hside shaped
      (count ▸ room) (stride ▸ bounded)).mono (never stride) fun next post => ?_)
    obtain ⟨store, invalidation, row, pushed, rfl, spec, shaped', rows, stride'⟩ := post
    have at' : result.chunkIndex = prepared.location.chunkIndex := congrArg DeviceLocation.chunkIndex same
    have inserted := @Sidecar.Aligned.inserted F _ _ _ registry _ self.deviceChunks
      (self.deviceChunks.set prepared.location.chunkIndex pushed) _ _ _ aligned h.islands.beside.arena _ _ _ _
      added.inserted row pushed shaped' (stride'.trans (stride.trans wide.symm))
      (Or.inr ⟨sameChunk.trans created, side, by rw [at', hside], rows, by rw [at']⟩)
    exact maintains_added h consistent added (stride ▸ spec) bounded inserted.1 inserted.2.1 inserted.2.2
  · have fits : DeviceTopologyChunk.Shaped (.new definition.partitionCount) :=
      DeviceTopologyChunk.shaped_new _
    have length := aligned.length
    rw [if_pos created, location, if_pos ⟨length.symm, rfl⟩]
    refine Returns.of_eq_some rfl ⟨lasts, fun result network' consistent added same sameChunk => ?_⟩
    unfold commitAddDevice
    rw [if_pos (sameChunk.trans created)]
    dsimp only [Option.map_some]
    rw [bind_of_eq_some rfl, same, ← length]
    let base : DerivedTopology :=
      { self with deviceChunks := self.deviceChunks ++ [.new definition.partitionCount] }
    refine ((@pushDeviceRow_spec base h.islands.sound prepared.device ⟨self.deviceChunks.length, 0⟩
      (.new definition.partitionCount) List.getElem?_concat_length fits (Nat.succ_pos 63) bounded).mono
      (never rfl) fun next post => ?_)
    obtain ⟨store, invalidation, row, pushed, rfl, spec, shaped', rows, stride'⟩ := post
    have inserted := @Sidecar.Aligned.inserted F _ _ _ registry _ self.deviceChunks
      (self.deviceChunks ++ [pushed]) _ _ _ aligned h.islands.beside.arena _ _ _ _ added.inserted row pushed shaped'
      (stride'.trans wide.symm) (Or.inl ⟨sameChunk.trans created, rows, rfl⟩)
    have chunks : base.deviceChunks.set self.deviceChunks.length pushed = self.deviceChunks ++ [pushed] := by
      rw [List.set_append_right _ _ (Nat.le_refl _), Nat.sub_self]
      rfl
    rw [chunks]
    exact maintains_added h consistent added spec bounded inserted.1 inserted.2.1 inserted.2.2

end DerivedTopology

end Hynergy
