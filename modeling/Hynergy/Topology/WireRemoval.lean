import Hynergy.Topology.Maintained

/-!
# Taking wires apart

A net that lost a wire or an edge is repaired, and then its island.
-/

namespace Hynergy

open Lib Relation

variable {F : Type}

namespace DerivedTopology

variable {registry : DefinitionRegistry F} {network network' : Network F} {self next : DerivedTopology}

variable [F64 F]

/-- What a net repair is called with: of the wires only those of net `id` were touched, and what
is attached to them may have been detached. -/
structure NetDamaged (registry : DefinitionRegistry F) (network network' : Network F) (id : NetId)
    (before : DerivedTopology) (map : List (Option NetId)) : Prop where
  consistent : network'.Consistent registry
  places : Network.SamePlaces network network'
  sub : ∀ device t wire, network'.attachedWire device t = some wire →
    network.attachedWire device t = some wire
  attached : ∀ device t wire, network.attachedWire device t = some wire → before.wireNet wire ≠ some id →
    network'.attachedWire device t = some wire
  mapped : ∀ wire : WireId, map[wire.index]?.join = some id → before.wireNet wire = some id
  kept : ∀ wire : WireId, before.wireNet wire ≠ some id → map[wire.index]?.join = before.wireNet wire

namespace NetDamaged

variable {id : NetId} {map : List (Option NetId)} {mid : DerivedTopology} {ids : List NetId}

omit [F64 F] in
/-- The pieces of the net touch only what the net touched. -/
theorem touches (d : NetDamaged registry network network' id self map) (h : Maintained registry network self)
    (repaired : NetRepaired registry network' id { self with wireNetMap := map } mid ids)
    {value : Net} (found : self.nets.get id = some value) {m : NetId} (member : m ∈ ids)
    {c : DeviceComponent} (there : mid.Touches m c) : self.Touches id c := by
  obtain ⟨net, held, listed⟩ := there
  obtain ⟨t, wire, definition, attached, on, known, read⟩ :=
    (touches_iff repaired.ok not_false held c).mp ⟨net, held, listed⟩
  refine (touches_iff h.nets not_false found c).mpr ⟨t, wire, definition, d.sub _ _ _ attached,
    d.mapped wire (repaired.wires wire m member on), ?_, read⟩
  rw [Network.definitionOf_eq, ← d.places.definitions, ← Network.definitionOf_eq, known]

omit [F64 F] in
/-- Every other net touches what it touched. -/
theorem touches_other (repaired : NetRepaired registry network' id { self with wireNetMap := map } mid ids)
    {m : NetId} (missing : m ∉ ids) (c : DeviceComponent) :
    mid.Touches m c ↔ m ≠ id ∧ self.Touches m c := by
  by_cases same : m = id
  · subst same
    constructor
    · intro there
      obtain ⟨net, held, -⟩ := there
      simp [repaired.gone missing] at held
    · exact fun both => absurd rfl both.1
  · rw [Touches, Touches, repaired.others m missing same]
    exact ⟨fun there => ⟨same, there⟩, And.right⟩

omit [F64 F] in
/-- The islands once the net is repaired: only the net's own may have fallen apart. -/
theorem islands (d : NetDamaged registry network network' id self map) (h : Maintained registry network self)
    (repaired : NetRepaired registry network' id { self with wireNetMap := map } mid ids)
    {value : Net} (found : self.nets.get id = some value) :
    IslandsOk (fun k => self.islandOfNet id = some k) registry network' mid := by
  have islandOf : ∀ m, mid.islandOfNet m =
      if m ∈ ids then self.islandOfNet id else if m = id then none else self.islandOfNet m := repaired.islandOf
  have components : ∀ c, mid.islandOf network' c = self.islandOf network c :=
    islandOf_congr repaired.deviceChunks d.places.directory
  have midIslands : mid.islands = self.islands := repaired.islands
  have touchingLabel : ∀ m c, mid.Touches m c → mid.islandOfNet m = self.islandOf network c ∧
      ∃ j, self.islandOf network c = some j := by
    intro m c there
    rw [islandOf]
    by_cases member : m ∈ ids
    · have before := d.touches h repaired found member there
      rw [if_pos member]
      obtain ⟨j, on⟩ := h.islands.reached id c before
      have same : self.islandOfNet id = self.islandOf network c :=
        h.islands.coarse (.net id) (.component c) before
      exact ⟨same, j, same.symm.trans on⟩
    · obtain ⟨different, before⟩ := (touches_other repaired member c).mp there
      rw [if_neg member, if_neg different]
      obtain ⟨j, on⟩ := h.islands.reached m c before
      have same : self.islandOfNet m = self.islandOf network c :=
        h.islands.coarse (.net m) (.component c) before
      exact ⟨same, j, same.symm.trans on⟩
  -- a net of an intact island was not repaired
  have intact : ∀ m k, self.islandOfNet id ≠ some k → mid.islandOfNet m = some k →
      m ∉ ids ∧ m ≠ id ∧ self.islandOfNet m = some k := by
    intro m k fine on
    rw [islandOf] at on
    split at on
    · exact absurd on fine
    · split at on
      · simp at on
      · exact ⟨‹_›, ‹_›, on⟩
  have label : ∀ v k, self.islandOfNet id ≠ some k → mid.islandLabel network' v = some k →
      self.islandLabel network v = some k := by
    intro v k fine on
    cases v with
    | net m => exact (intact m k fine on).2.2
    | component c => exact (components c).symm.trans on
  refine ⟨midIslands ▸ h.islands.sound, h.islands.beside.relink d.consistent d.places.directory d.places.heads
    repaired.deviceChunks, repaired.netMap, fun m gone => ?_, fun m k on => ?_, fun c k on => ?_,
    fun k island held => ?_, fun k island held c member => ?_, fun k island _ held => ?_,
    fun m k fine on => ?_, fun m c there => ?_, fun u v edge => ?_, fun k fine u v hu hv hui hvi => ?_⟩
  · rw [islandOf]
    by_cases member : m ∈ ids
    · obtain ⟨net, held⟩ := repaired.nets m member
      simp [held] at gone
    · rw [if_neg member]
      split
      · rfl
      · rename_i different
        exact h.islands.removed m (by rw [← repaired.others m member different]; exact gone)
  · rw [midIslands]
    rw [islandOf] at on
    split at on
    · exact h.islands.alive id k on
    · split at on
      · simp at on
      · exact h.islands.alive m k on
  · rw [midIslands]
    exact h.islands.named c k ((components c).symm.trans on)
  · rw [midIslands] at held
    exact h.islands.nodup k island held
  · rw [midIslands] at held
    exact (components c).trans (h.islands.members k island held c member)
  · rw [midIslands] at held
    exact h.islands.nonempty k island not_false held
  · obtain ⟨missing, different, before⟩ := intact m k fine on
    obtain ⟨c, there⟩ := h.islands.anchored m k not_false before
    exact ⟨c, (touches_other repaired missing c).mpr ⟨different, there⟩⟩
  · obtain ⟨same, j, on⟩ := touchingLabel m c there
    exact ⟨j, same.trans on⟩
  · cases u with
    | net m =>
      cases v with
      | net other => exact edge.elim
      | component c => exact (touchingLabel m c edge).1.trans (components c).symm
    | component c =>
      cases v with
      | component other => exact edge.elim
      | net m => exact ((touchingLabel m c edge).1.trans (components c).symm).symm
  · -- the paths of an intact island are the old ones
    have hui' := label u k fine hui
    have hvi' := label v k fine hvi
    have path := h.islands.exact k not_false u v (by rw [InIsland, hui']; simp) (by rw [InIsland, hvi']; simp)
      hui' hvi'
    clear hu hv hui hvi hvi'
    induction path with
    | refl => exact .refl
    | @tail x y before step ih =>
      refine ih.tail ?_
      have there : ∀ m c, self.Touches m c → self.islandOfNet m = some k → mid.Touches m c := by
        intro m c touching on
        have missing : m ∉ ids := by
          intro member
          rcases repaired.fresh m member with same | none'
          · exact fine (same ▸ on)
          · obtain ⟨net, held, -⟩ := touching
            rw [show self.nets.get m = none from none'] at held
            simp at held
        exact (touches_other repaired missing c).mpr ⟨fun same => fine (same ▸ on), touching⟩
      have at' := (h.islands.coarse.reach before).symm.trans hui'
      cases x with
      | net m =>
        cases y with
        | net other => exact step.elim
        | component c => exact there m c step at'
      | component c =>
        cases y with
        | component other => exact step.elim
        | net m => exact there m c step ((h.islands.coarse _ _ step).symm.trans at')

omit [F64 F] in
/-- The nodes outside the island of the net are as before. -/
theorem nodes (d : NetDamaged registry network network' id self map) (h : Maintained registry network self)
    (repaired : NetRepaired registry network' id { self with wireNetMap := map } mid ids)
    (wires : next.wireNetMap = mid.wireNetMap) {c : DeviceComponent} {j : IslandId}
    (on : self.islandOf network c = some j) (off : self.islandOfNet id ≠ some j) :
    SameNodes registry network network' self next c := by
  refine .of_elsewhere h (d.places.definitions _) (fun t free => ?_) fun t wire m attached onNet label => ?_
  · cases there : network'.attachedWire c.device t with
    | none => rfl
    | some wire => simp [d.sub _ _ _ there] at free
  · have elsewhere : self.wireNet wire ≠ some id := by
      intro here
      obtain rfl := Option.some.inj (onNet.symm.trans here)
      exact off (label.trans on)
    refine ⟨d.attached _ _ _ attached elsewhere, ?_⟩
    rw [wireNet, wires]
    have before := d.kept wire elsewhere
    refine (repaired.elsewhere wire ?_).trans ?_
    · exact fun here => elsewhere (before.symm.trans here)
    · exact before.trans onNet

omit [F64 F] in
/-- A net in no island needs no more repair. -/
theorem maintains_none (d : NetDamaged registry network network' id self map)
    (h : Maintained registry network self)
    (repaired : NetRepaired registry network' id { self with wireNetMap := map } mid ids)
    {value : Net} (found : self.nets.get id = some value) (none' : self.islandOfNet id = none) :
    Maintains registry network network' self mid := by
  have islands : IslandsSound registry network' mid := (d.islands h repaired found).mono fun k on => by
    rw [none'] at on
    simp at on
  refine ⟨⟨d.consistent, repaired.ok, islands, h.invalidation.of_same repaired.islands repaired.invalidation⟩,
    .of_same repaired.islands repaired.invalidation, fun j island held _ c member => ?_⟩
  rw [show mid.islands = self.islands from repaired.islands] at held
  exact d.nodes h repaired rfl (h.islands.members j island held c member) (by rw [none']; simp)

/-- The island of the net is repaired as well. -/
theorem maintains_some (d : NetDamaged registry network network' id self map)
    (partitioned : registry.Partitioned) (h : Maintained registry network self)
    (repaired : NetRepaired registry network' id { self with wireNetMap := map } mid ids)
    {value : Net} (found : self.nets.get id = some value) {i : IslandId} {island : IslandTopology}
    (some' : self.islandOfNet id = some i) (held : self.islands.get i = some island)
    {scratch : TraversalScratch} (sound : scratch.Sound) :
    Returns (IslandsShort (network'.wiring registry) self [i]) (mid.repairIsland registry network' scratch i ids) fun result =>
      ¬ IslandsShort (network'.wiring registry) self [i] ∧
        Maintains registry network network' self result.1 ∧ result.2.Sound := by
  have midIslands : mid.islands = self.islands := repaired.islands
  have islands := d.islands h repaired found
  have heldMid : mid.islands.get i = some island := by rw [midIslands]; exact held
  have spec := repairIsland_spec d.consistent partitioned repaired.ok islands heldMid
    (fun m (member : m ∈ ids) => (repaired.islandOf m).trans ((if_pos member).trans some'))
    (fun m on => by
      by_cases member : m ∈ ids
      · exact Or.inr member
      · have before := (repaired.islandOf m).symm.trans on
        rw [if_neg member] at before
        split at before
        · simp at before
        · rename_i different
          obtain ⟨c, there⟩ := h.islands.anchored m i not_false before
          exact Or.inl ⟨c, (touches_other repaired member c).mpr ⟨different, there⟩⟩) sound
  rw [midIslands] at spec
  have short := @islandsShort_single self (network'.wiring registry) i island held fun c member => by
    show (network'.record c.device).isSome = true
    rw [d.places.resident]
    exact h.resident held member
  refine spec.mono short.mpr fun result post => ?_
  obtain ⟨enough, island', sound'⟩ := post
  refine ⟨fun few => enough (short.mp few), ?_⟩
  have okMid := h.invalidation.of_same repaired.islands repaired.invalidation
  obtain ⟨dirtied, invalidation, dirty⟩ := island'.dirtied okMid islands.sound heldMid
  have first : Dirtied self mid := .of_same repaired.islands repaired.invalidation
  have dirtied' : Dirtied self result.1 := first.trans h.islands.sound h.invalidation dirtied
  refine ⟨⟨⟨d.consistent, repaired.ok.of_nets island'.nets island'.wireNetMap, ?_, invalidation⟩, dirtied',
    fun j value' held' off c member => ?_⟩, sound'⟩
  · refine island'.ok.mono fun k both => ?_
    exact both.2 (Option.some.inj (both.1.symm.trans some'))
  · obtain ⟨-, old, before, components⟩ := dirtied'.clean j value' held' off
    refine d.nodes h repaired island'.wireNetMap (h.islands.members j old before c (components ▸ member)) ?_
    intro here
    obtain rfl := Option.some.inj (some'.symm.trans here)
    rcases dirty with marked | gone
    · exact off marked
    · rw [gone] at held'
      simp at held'

end NetDamaged

/-- The net of the wire falls into more nets, or those into more islands, than there are ids for. -/
def DisconnectShort (wiring : Wiring) (topology : DerivedTopology) (wire : WireId) : Prop :=
  ∃ id, topology.wireNet wire = some id ∧ (topology.nets.unused < topology.netPieces wiring id - 1 ∨
    1 < topology.netPieces wiring id ∧ ∃ i, topology.islandOfNet id = some i ∧ IslandsShort wiring topology [i])

/-- The same where a wire is removed: then the island is repaired even if the net stays in one piece. -/
def RemovalShort (wiring : Wiring) (topology : DerivedTopology) (wire : WireId) : Prop :=
  ∃ id, topology.wireNet wire = some id ∧ (topology.nets.unused < topology.netPieces wiring id - 1 ∨
    ∃ i, topology.islandOfNet id = some i ∧ IslandsShort wiring topology [i])

theorem disconnectWires_maintains (partitioned : registry.Partitioned)
    (h : Maintained registry network self) {a b : WireId} (edge : network.WireEdge a b)
    (relinked : Network.Relinked registry network network' (Unlink network.Lists (.wire a) (.wire b)))
    {scratch : TraversalScratch} (sound : scratch.Sound) :
    Returns (DisconnectShort (network'.wiring registry) self a) (self.disconnectWires registry network' scratch a b) fun result =>
      ¬ DisconnectShort (network'.wiring registry) self a ∧
        Maintains registry network network' self result.1 ∧ result.2.Sound := by
  have consistent := relinked.consistent
  have live := relinked.same.wires.live
  have same : Network.SameAttachments network network' := .of_lists h.consistent consistent
    relinked.same.devices.places fun device port fits wire => by simp [relinked.lists, Unlink]
  have edges : ∀ u v, network'.WireEdge u v ↔ Unlink network.WireEdge a b u v := by
    intro u v
    simp [Network.WireEdge, relinked.lists, Unlink]
  have sameLive : network'.LiveWire = network.LiveWire := by
    funext wire
    rw [Network.LiveWire, Network.LiveWire, live]
  obtain ⟨id, onA⟩ := h.nets.isSome (h.consistent.undirected.left edge)
  have onB : self.wireNet b = some id := (h.nets.coarse a b edge).symm.trans onA
  obtain ⟨value, held, memberA⟩ := h.nets.named a id onA
  -- only the net of the two wires may have fallen apart
  have damagedNets : NetsOk (· = id) registry network' self := by
    refine h.nets.relink (fun _ => False.elim) live same (fun u v step => h.nets.coarse u v ((edges u v).mp step).1)
      fun m fine => ?_
    rw [sameLive]
    refine (h.nets.exact m not_false).congr h.nets.coarse (fun _ hu _ => hu) fun u v step on => ?_
    refine (edges u v).mpr ⟨step, fun both => ?_, fun both => ?_⟩
    · rw [both.1, onA] at on
      exact fine (Option.some.inj on).symm
    · rw [both.1, onB] at on
      exact fine (Option.some.inj on).symm
  have damaged : NetDamaged registry network network' id self self.wireNetMap :=
    ⟨consistent, same.places, fun device t wire attached => by rwa [same.attached] at attached,
      fun device t wire attached _ => by rwa [same.attached], fun _ on => on, fun _ _ => rfl⟩
  unfold disconnectWires
  rw [bind_of_eq_some onA, bind_of_eq_some onB, if_neg (not_not_intro rfl),
    bind_of_eq_some (h.islands.netIsland_eq h.nets.sound held)]
  have repair := repairNet_spec consistent partitioned damagedNets held h.islands.map sound
  have pieces : classCount network'.WireEdge {wire | self.wireNet wire = some id} = self.netPieces (network'.wiring registry) id := by
    refine congrArg (classCount _) (Set.ext fun wire => ⟨fun on => ⟨on, ?_⟩, And.left⟩)
    show network'.LiveWire wire
    rw [sameLive]
    exact h.nets.live_of_wireNet on
  rw [pieces] at repair
  refine (repair.mono (fun full => ⟨id, onA, Or.inl full⟩) fun _ post => post).bind fun result post => ?_
  obtain ⟨ids, mid, scratch'⟩ := result
  obtain ⟨enough, many, repaired, sound'⟩ := post
  dsimp only at many repaired sound' ⊢
  have whole : (1 < self.netPieces (network'.wiring registry) id → ∀ i, self.islandOfNet id = some i →
      ¬ IslandsShort (network'.wiring registry) self [i]) → ¬ DisconnectShort (network'.wiring registry) self a := by
    rintro islands ⟨id', onA', short⟩
    obtain rfl := Option.some.inj (onA.symm.trans onA')
    rcases short with few | ⟨split, i, on, short⟩
    · exact absurd few (Nat.not_lt.mpr enough)
    · exact islands split i on short
  cases label : self.islandOfNet id with
  | none =>
    exact ⟨whole fun _ i on => (by rw [label] at on; cases on), damaged.maintains_none h repaired held label, sound'⟩
  | some i =>
    obtain ⟨island, heldIsland⟩ := h.islands.alive id i label
    dsimp only
    have midIslands : mid.islands = self.islands := repaired.islands
    rw [midIslands, heldIsland]
    by_cases several : ids.length > 1
    · rw [if_pos ⟨several, rfl⟩]
      refine (damaged.maintains_some partitioned h repaired held label heldIsland sound').mono
        (fun short => ⟨id, onA, Or.inr ⟨many ▸ several, i, label, short⟩⟩) fun _ post => ⟨whole fun _ j on => ?_, post.2⟩
      obtain rfl := Option.some.inj (label.symm.trans on)
      exact post.1
    · -- the net stayed in one piece
      rw [if_neg fun both => several both.1]
      have wires : ∀ wire, mid.wireNet wire = self.wireNet wire := repaired.single (Nat.not_lt.mp several)
      have isKept : id ∈ ids := by
        by_contra missing
        obtain ⟨net, heldMid, -⟩ := repaired.ok.named a id ((wires a).trans onA)
        simp [repaired.gone missing] at heldMid
      have only : ids = [id] := by
        have length : ids.length = 1 := by
          have := List.length_pos_of_mem isKept
          omega
        obtain ⟨x, rfl⟩ := List.length_eq_one_iff.mp length
        rw [List.mem_singleton.mp isKept]
      have touches : ∀ m c, mid.Touches m c ↔ self.Touches m c := by
        intro m c
        by_cases same' : m = id
        · subst same'
          obtain ⟨net, heldMid⟩ := repaired.nets m isKept
          rw [touches_iff repaired.ok not_false heldMid c, touches_iff h.nets not_false held c]
          simp only [LeadsTo, wires, same.attached, Network.definitionOf_eq, same.places.definitions]
        · have missing : m ∉ ids := by rw [only]; simpa using same'
          rw [NetDamaged.touches_other repaired missing c]
          exact ⟨And.right, fun there => ⟨same', there⟩⟩
      have labels : ∀ m, mid.islandOfNet m = self.islandOfNet m := by
        intro m
        refine (repaired.islandOf m).trans ?_
        by_cases same' : m = id
        · rw [if_pos (same' ▸ isKept), same']
        · rw [if_neg (by rw [only]; simpa using same'), if_neg same']
      refine ⟨whole fun split => absurd (many ▸ split) several, ⟨⟨consistent, repaired.ok, ?_,
        h.invalidation.of_same repaired.islands repaired.invalidation⟩, .of_same repaired.islands repaired.invalidation, fun j island' _ _ c _ => ?_⟩, sound'⟩
      · refine h.islands.congr consistent same.places.directory same.places.heads repaired.islands
          repaired.deviceChunks repaired.netMap labels (fun m gone => ?_) touches
        have different : m ≠ id := by
          intro same'
          obtain ⟨net, heldMid⟩ := repaired.nets m (same' ▸ isKept)
          simp [heldMid] at gone
        exact h.islands.removed m ((repaired.others m (by rw [only]; simpa using different) different).symm.trans gone)
      · exact .of_elsewhere h (same.places.definitions _) (fun t free => by rw [same.attached, free])
          fun t wire m attached on _ => ⟨by rw [same.attached, attached], (wires wire).trans on⟩

theorem removeWire_maintains (partitioned : registry.Partitioned) (h : Maintained registry network self)
    {id : WireId} (consistent : network'.Consistent registry)
    (removed : Network.WireRemoved network network' id) {scratch : TraversalScratch} (sound : scratch.Sound) :
    Returns (RemovalShort (network'.wiring registry) self id) (self.removeWire registry network' scratch id) fun result =>
      ¬ RemovalShort (network'.wiring registry) self id ∧
        Maintains registry network network' self result.1 ∧ result.2.Sound := by
  obtain ⟨slot, liveId⟩ := removed.live
  obtain ⟨net, on⟩ := h.nets.isSome (Option.isSome_iff_exists.mpr ⟨slot, liveId⟩)
  obtain ⟨value, held, member⟩ := h.nets.named id net on
  obtain ⟨map, run, length, entries⟩ := setWireNet_spec (lt_of_wireNet on) none
  have places := removed.devices.places
  have edges : ∀ u v, network'.WireEdge u v ↔ network.WireEdge u v ∧ u ≠ id ∧ v ≠ id := by
    intro u v
    simp [Network.WireEdge, removed.lists, Isolate]
  have attached : ∀ device t wire, network'.attachedWire device t = some wire ↔
      network.attachedWire device t = some wire ∧ wire ≠ id := by
    intro device t wire
    rw [Network.attachedWire_iff consistent, Network.attachedWire_iff h.consistent]
    simp [removed.lists, Isolate]
  have live : ∀ wire, network'.LiveWire wire ↔ network.LiveWire wire ∧ wire ≠ id := by
    intro wire
    by_cases same : wire = id
    · subst same
      simp [Network.LiveWire, removed.gone]
    · rw [Network.LiveWire, removed.stays wire same, Network.LiveWire]
      simp [same]
  have damaged : NetDamaged registry network network' net self map := by
    refine ⟨consistent, places, fun device t wire there => ((attached device t wire).mp there).1,
      fun device t wire there off => (attached device t wire).mpr ⟨there, fun same => off (same ▸ on)⟩,
      fun wire here => ?_, fun wire off => ?_⟩
    · rw [entries] at here
      split at here
      · simp at here
      · exact here
    · rw [entries, if_neg fun same : wire = id => off (same ▸ on)]
  have incidences : ∀ m, m ≠ net → ∀ device, network'.incidences registry
      (fun wire => decide (map[wire.index]?.join = some m)) device =
        network.incidences registry (fun wire => decide (self.wireNet wire = some m)) device := by
    intro m different device
    apply places.incidences
    intro t
    cases there : network.attachedWire device t with
    | none =>
      have : network'.attachedWire device t = none := by
        cases there' : network'.attachedWire device t with
        | none => rfl
        | some wire => simp [((attached device t wire).mp there').1] at there
      rw [this]
      rfl
    | some wire =>
      by_cases same : wire = id
      · have gone : network'.attachedWire device t = none := by
          cases there' : network'.attachedWire device t with
          | none => rfl
          | some wire' =>
            obtain ⟨before, off⟩ := (attached device t wire').mp there'
            exact absurd ((Option.some.inj (there.symm.trans before)).symm.trans same) off
        rw [gone, same, Option.filter_some, if_neg]
        · rfl
        · rw [on]
          simpa using Ne.symm different
      · rw [(attached device t wire).mpr ⟨there, same⟩, Option.filter_some, Option.filter_some, entries,
          if_neg same]
  have damagedNets : NetsOk (· = net) registry network' { self with wireNetMap := map } := by
    have wireNet' : ∀ wire, DerivedTopology.wireNet { self with wireNetMap := map } wire =
        if wire = id then none else self.wireNet wire := entries
    refine ⟨h.nets.sound, fun wire => ?_, fun wire m here => ?_, h.nets.nodup, fun m value' held' wire there => ?_,
      fun m value' fine held' => ⟨(h.nets.wires m value' not_false held').1, fun wire there => ?_⟩,
      fun m value' fine held' device => ?_, fun u v step => ?_, fun m fine u v hu hv hm hm' => ?_⟩
    · rw [wireNet']
      by_cases same : wire = id
      · rw [if_pos same, same, removed.gone]
        rfl
      · rw [if_neg same, removed.stays wire same]
        exact h.nets.live wire
    · rw [wireNet'] at here
      split at here
      · simp at here
      · exact h.nets.named wire m here
    · rw [show ({ self with wireNetMap := map } : DerivedTopology).wireNetMap.length = map.length from rfl, length]
      exact h.nets.mapped m value' held' wire there
    · have before := (h.nets.wires m value' not_false held').2 wire there
      rw [wireNet', if_neg, before]
      intro same
      rw [same, on] at before
      exact fine (Option.some.inj before).symm
    · have := h.nets.terminals m value' not_false held' device
      rw [← incidences m fine] at this
      exact this
    · obtain ⟨old, notU, notV⟩ := (edges u v).mp step
      rw [wireNet', wireNet', if_neg notU, if_neg notV]
      exact h.nets.coarse u v old
    · have label : ∀ w, network'.LiveWire w → DerivedTopology.wireNet { self with wireNetMap := map } w = some m →
          self.wireNet w = some m := by
        intro w hw here
        rw [wireNet', if_neg ((live w).mp hw).2] at here
        exact here
      refine (h.nets.exact m not_false).congr h.nets.coarse (fun w hw _ => ((live w).mp hw).1)
        (fun w x step here => (edges w x).mpr ⟨step, fun same => ?_, fun same => ?_⟩) u v hu hv
        (label u hu hm) (label v hv hm')
      · rw [same, on] at here
        exact fine (Option.some.inj here).symm
      · have := (h.nets.coarse w x step).symm.trans here
        rw [same, on] at this
        exact fine (Option.some.inj this).symm
  unfold removeWire
  rw [bind_of_eq_some on, bind_of_eq_some run,
    bind_of_eq_some (show netIsland { self with wireNetMap := map } net = some (self.islandOfNet net) from
      h.islands.netIsland_eq h.nets.sound held)]
  have repair := repairNet_spec consistent partitioned damagedNets held h.islands.map sound
  have pieces : classCount network'.WireEdge {wire | DerivedTopology.wireNet { self with wireNetMap := map } wire = some net} =
      self.netPieces (network'.wiring registry) net := by
    refine congrArg (classCount _) (Set.ext fun wire => ?_)
    show map[wire.index]?.join = some net ↔ _ ∧ network'.LiveWire wire
    rw [entries, live]
    by_cases same : wire = id
    · simp [same]
    · rw [if_neg same]
      exact ⟨fun here => ⟨here, h.nets.live_of_wireNet here, same⟩, And.left⟩
  rw [pieces] at repair
  refine (repair.mono (fun full => ⟨net, on, Or.inl full⟩) fun _ post => post).bind fun result post => ?_
  obtain ⟨ids, mid, scratch'⟩ := result
  obtain ⟨enough, -, repaired, sound'⟩ := post
  dsimp only at repaired sound' ⊢
  have whole : (∀ i, self.islandOfNet net = some i → ¬ IslandsShort (network'.wiring registry) self [i]) →
      ¬ RemovalShort (network'.wiring registry) self id := by
    rintro islands ⟨net', on', short⟩
    obtain rfl := Option.some.inj (on.symm.trans on')
    rcases short with few | ⟨i, on, short⟩
    · exact absurd few (Nat.not_lt.mpr enough)
    · exact islands i on short
  cases label : self.islandOfNet net with
  | none => exact ⟨whole fun i on => (by rw [label] at on; cases on), damaged.maintains_none h repaired held label, sound'⟩
  | some i =>
    obtain ⟨island, heldIsland⟩ := h.islands.alive net i label
    dsimp only
    rw [show mid.islands = self.islands from repaired.islands, heldIsland,
      if_pos (show (some island).isSome = true from rfl)]
    refine (damaged.maintains_some partitioned h repaired held label heldIsland sound').mono
      (fun short => ⟨net, on, Or.inr ⟨i, label, short⟩⟩) fun _ post => ⟨whole fun j there => ?_, post.2⟩
    obtain rfl := Option.some.inj (label.symm.trans there)
    exact post.1

end DerivedTopology

end Hynergy
