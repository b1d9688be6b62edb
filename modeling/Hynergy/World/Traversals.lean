import Hynergy.World.DeviceValues

/-!
# The shared scratch

Every repair walks with the one scratch of its world. A traversal begins by clearing what the
ones before it marked, and its marks only ever grow in number, so it runs as it would with a
scratch that was never used, whatever networks the earlier ones were over.
-/

namespace Hynergy

open Lib Relation

variable {F : Type}

/-- A walk over a net or over an island of a network. -/
inductive Traversal (F : Type) where
  | wires (topology : DerivedTopology) (definitions : DefinitionRegistry F) (network : Network F) (netId : NetId)
  | island (topology : DerivedTopology) (definitions : DefinitionRegistry F) (network : Network F)
      (islandId : IslandId) (affectedNets : List NetId)

/-- The pieces a traversal finds. -/
inductive Visited where
  | wires (pieces : List WireComponent)
  | island (pieces : List IslandComponent)

/-- The network's edges between nets and components: a terminal of the component is attached to a
wire of the net. -/
def IslandEdge (definitions : DefinitionRegistry F) (network : Network F) (topology : DerivedTopology) :
    IslandVertex → IslandVertex → Prop
  | .net id, .component c => DerivedTopology.LeadsTo definitions network topology c id
  | .component c, .net id => DerivedTopology.LeadsTo definitions network topology c id
  | _, _ => False

theorem DerivedTopology.NetsOk.touches_iff_leadsTo {registry : DefinitionRegistry F} {network : Network F}
    {topology : DerivedTopology} (h : NetsSound registry network topology) (netId : NetId) (c : DeviceComponent) :
    topology.Touches netId c ↔ LeadsTo registry network topology c netId := by
  constructor
  · intro touches
    obtain ⟨net, found, -⟩ := id touches
    exact (touches_iff h not_false found c).mp touches
  · intro leads
    obtain ⟨-, wire, -, -, on, -⟩ := id leads
    obtain ⟨net, found, -⟩ := h.named wire netId on
    exact (touches_iff h not_false found c).mpr leads

/-- The attachments a topology lists are the network's. -/
theorem DerivedTopology.NetsOk.attached_eq {registry : DefinitionRegistry F} {network : Network F}
    {topology : DerivedTopology} (h : NetsSound registry network topology) :
    topology.Attached = IslandEdge registry network topology := by
  funext u v
  cases u with
  | net id =>
    cases v with
    | net other => rfl
    | component c => exact propext (h.touches_iff_leadsTo id c)
  | component c =>
    cases v with
    | net id => exact propext (h.touches_iff_leadsTo id c)
    | component other => rfl

namespace Traversal

/-- The network and the topology are as every repair has them where it starts this traversal. -/
def Fits : Traversal F → Prop
  | .wires topology definitions network netId => DerivedTopology.NetWalkable definitions network topology netId
  | .island topology definitions network islandId affectedNets =>
    DerivedTopology.IslandWalkable definitions network topology islandId affectedNets

/-- The pieces are disjoint, list each vertex once, and each is what one of the starts reaches over
the network's edges; every start is in one. -/
def Visits : Traversal F → Visited → Prop
  | .wires topology _ network netId, .wires pieces =>
    ∃ net, topology.nets.get netId = some net ∧
      Pieces network.WireEdge (fun _ => False)
        (net.wires.filter fun start => topology.wireNet start = some netId) (pieces.map WireComponent.wires)
  | .island topology definitions network islandId affectedNets, .island pieces =>
    ∃ island, topology.islands.get islandId = some island ∧
      Pieces (IslandEdge definitions network topology) (fun _ => False)
        (island.components.map IslandVertex.component ++ affectedNets.map IslandVertex.net)
        (pieces.map IslandComponent.vertices)
  | _, _ => False

variable [F64 F]

def run : Traversal F → TraversalScratch → Option (Visited × TraversalScratch)
  | .wires topology definitions network netId, scratch => do
    let (pieces, scratch) ← wireComponents topology definitions network netId scratch
    some (.wires pieces, scratch)
  | .island topology definitions network islandId affectedNets, scratch => do
    let (pieces, scratch) ← islandComponents topology definitions network scratch islandId affectedNets
    some (.island pieces, scratch)

/-- A traversal finds the same pieces with every scratch that earlier ones left. -/
theorem run_spec {traversal : Traversal F} (fits : traversal.Fits) :
    ∃ visited, traversal.Visits visited ∧ ∀ scratch : TraversalScratch, scratch.Sound →
      ∃ scratch', traversal.run scratch = some (visited, scratch') ∧ scratch'.Sound := by
  cases traversal with
  | wires topology definitions network netId =>
    obtain ⟨net, found⟩ := fits.live
    obtain ⟨pieces, split, -, walks⟩ := DerivedTopology.wireComponents_walks fits found
    refine ⟨.wires pieces, ⟨net, found, split⟩, fun scratch sound => ?_⟩
    obtain ⟨scratch', walked, sound'⟩ := walks scratch sound
    refine ⟨scratch', ?_, sound'⟩
    unfold run
    dsimp only
    rw [bind_of_eq_some walked]
  | island topology definitions network islandId affectedNets =>
    obtain ⟨island, found⟩ := fits.live
    obtain ⟨pieces, split, walks⟩ := DerivedTopology.islandComponents_walks fits found
    rw [fits.nets.attached_eq] at split
    refine ⟨.island pieces, ⟨island, found, split⟩, fun scratch sound => ?_⟩
    obtain ⟨scratch', walked, sound'⟩ := walks scratch sound
    refine ⟨scratch', ?_, sound'⟩
    unfold run
    dsimp only
    rw [bind_of_eq_some walked]

/-- With a larger scratch a traversal does what it does with a smaller, whatever it is over. -/
theorem run_follows {traversal : Traversal F} {small large next : TraversalScratch} {visited : Visited}
    (h : small.Roomier large) (run : traversal.run small = some (visited, next)) :
    ∃ next', traversal.run large = some (visited, next') ∧ next.Roomier next' := by
  cases traversal with
  | wires topology definitions network netId =>
    obtain ⟨⟨pieces, after⟩, walked, run⟩ := Option.bind_eq_some_iff.mp run
    obtain ⟨rfl, rfl⟩ := Prod.mk.inj (Option.some.inj run)
    obtain ⟨next', walked', roomier⟩ := TraversalScratch.wireComponents_follows h walked
    exact ⟨next', Option.bind_eq_some_iff.mpr ⟨_, walked', rfl⟩, roomier⟩
  | island topology definitions network islandId affectedNets =>
    obtain ⟨⟨pieces, after⟩, walked, run⟩ := Option.bind_eq_some_iff.mp run
    obtain ⟨rfl, rfl⟩ := Prod.mk.inj (Option.some.inj run)
    obtain ⟨next', walked', roomier⟩ := TraversalScratch.islandComponents_follows h walked
    exact ⟨next', Option.bind_eq_some_iff.mpr ⟨_, walked', rfl⟩, roomier⟩

end Traversal

namespace Stores

/-! ### Commands -/

def withScratch (self : Stores F) (scratch : TraversalScratch) : Stores F := { self with topologyScratch := scratch }

/-- The second outcome is the first but for a larger scratch; nothing is said where the first is a
panic. -/
def FollowedBy {α : Type} (first second : Outcome (Stores F) NetworkModelError α) : Prop :=
  match first with
  | .ok value after =>
    ∃ scratch, second = .ok value (after.withScratch scratch) ∧ after.topologyScratch.Roomier scratch
  | .err error after =>
    ∃ scratch, second = .err error (after.withScratch scratch) ∧ after.topologyScratch.Roomier scratch
  | .panic => True

/-- The call does the same with every larger scratch. -/
def Heedless {α : Type} (call : Command F α) : Prop :=
  ∀ (self : Stores F) (scratch : TraversalScratch), self.topologyScratch.Roomier scratch →
    FollowedBy (call self) (call (self.withScratch scratch))

namespace FollowedBy

variable {α β : Type} {self other : Stores F}

theorem bind {call call' : Command F α} {next next' : α → Command F β} (h : FollowedBy (call self) (call' other))
    (rest : ∀ value after scratch, after.topologyScratch.Roomier scratch →
      FollowedBy (next value after) (next' value (after.withScratch scratch))) :
    FollowedBy ((call >>= next) self) ((call' >>= next') other) := by
  cases ran : call self with
  | ok value after =>
    rw [ran] at h
    obtain ⟨scratch, ran', roomier⟩ := h
    rw [Call.bind_ok ran, Call.bind_ok ran']
    exact rest value after scratch roomier
  | err error after =>
    rw [ran] at h
    obtain ⟨scratch, ran', roomier⟩ := h
    rw [Call.bind_err ran, Call.bind_err ran']
    exact ⟨scratch, rfl, roomier⟩
  | panic =>
    rw [Call.bind_panic ran]
    trivial

theorem get {next next' : Stores F → Command F β} (h : FollowedBy (next self self) (next' other other)) :
    FollowedBy ((Call.get >>= next) self) ((Call.get >>= next') other) := h

theorem set {next next' : Unit → Command F β} {after after' : Stores F} (h : FollowedBy (next () after) (next' () after')) :
    FollowedBy ((Call.set after >>= next) self) ((Call.set after' >>= next') other) := h

theorem expect {value : Option α} {next next' : α → Command F β}
    (h : ∀ x, FollowedBy (next x self) (next' x other)) :
    FollowedBy ((Call.expect value >>= next) self) ((Call.expect value >>= next') other) := by
  cases value with
  | some x => exact h x
  | none => exact trivial

end FollowedBy

theorem Heedless.bind {α β : Type} {call : Command F α} {next : α → Command F β} (h : Heedless call)
    (rest : ∀ value, Heedless (next value)) : Heedless (call >>= next) :=
  fun self scratch roomier => (h self scratch roomier).bind fun value after scratch' roomier' =>
    rest value after scratch' roomier'

theorem onNetwork_heedless {α : Type} (call : Call (Network F) NetworkModelError α) : Heedless (onNetwork call) := by
  intro self scratch roomier
  unfold onNetwork Call.zoom
  rw [show (self.withScratch scratch).network = self.network from rfl]
  cases call self.network with
  | ok value network => exact ⟨scratch, rfl, roomier⟩
  | err error network => exact ⟨scratch, rfl, roomier⟩
  | panic => exact trivial

theorem retopologize_heedless (edit : Network F → DerivedTopology → Option DerivedTopology) :
    Heedless (retopologize edit) := by
  intro self scratch roomier
  refine .get ?_
  rw [show (self.withScratch scratch).network = self.network from rfl,
    show (self.withScratch scratch).derivedTopology = self.derivedTopology from rfl]
  exact .expect fun topology => ⟨scratch, rfl, roomier⟩

theorem retraverse_heedless {edit : Network F → DerivedTopology → TraversalScratch →
      Option (DerivedTopology × TraversalScratch)}
    (follows : ∀ {network topology small large after next}, small.Roomier large →
      edit network topology small = some (after, next) →
        ∃ next', edit network topology large = some (after, next') ∧ next.Roomier next') :
    Heedless (retraverse edit) := by
  intro self scratch roomier
  refine .get ?_
  cases edited : edit self.network self.derivedTopology self.topologyScratch with
  | none => exact trivial
  | some result =>
    obtain ⟨topology, next⟩ := result
    obtain ⟨next', edited', roomier'⟩ := follows roomier edited
    have same : edit (self.withScratch scratch).network (self.withScratch scratch).derivedTopology
        (self.withScratch scratch).topologyScratch = some (topology, next') := edited'
    rw [same]
    exact ⟨next', rfl, roomier'⟩

theorem markMoved_heedless (devices : List DeviceId) : Heedless (markMoved devices : Command F Unit) := by
  induction devices with
  | nil => exact fun self scratch roomier => ⟨scratch, rfl, roomier⟩
  | cons device devices ih => exact (retopologize_heedless _).bind fun _ => ih

/-- The marks and subscriptions that follow the removal of a device. -/
theorem afterRemoval_heedless (device : DeviceId) (removal : DeviceRemoveResult) : Heedless (F := F) (do
    markMoved removal.movedDevice.toList
    match removal.chunkRelocation with
    | none => pure ()
    | some relocation => do
      let self ← Call.get
      let movedDevices ← Call.expect (self.network.deviceIdsInChunk relocation.toChunk)
      markMoved movedDevices
    Call.modify fun self => { self with subscriptions := self.subscriptions.removeDevice device }) := by
  refine (markMoved_heedless _).bind fun _ => ?_
  cases removal.chunkRelocation with
  | none => exact fun self scratch roomier => ⟨scratch, rfl, roomier⟩
  | some relocation =>
    intro self scratch roomier
    refine .get (.expect fun movedDevices => ?_)
    refine (markMoved_heedless _ self scratch roomier).bind fun _ self scratch roomier => ?_
    exact ⟨scratch, rfl, roomier⟩

variable [F64 F] {definitions : DefinitionRegistry F}

theorem addDevice_heedless (device : DeviceId) (definition : DefinitionId) :
    Heedless (addDevice definitions device definition) := by
  refine (onNetwork_heedless _).bind fun modelInsert self scratch roomier => ?_
  refine .expect fun definition => .get (.expect fun stateInsert => .expect fun topologyInsert => ?_)
  refine (onNetwork_heedless _ self scratch roomier).bind fun insert self scratch roomier => ?_
  refine .get (.expect fun physicalState => .set ?_)
  exact retopologize_heedless _ { self with physicalState } scratch roomier

theorem topologyRemoval_heedless (device : DeviceId) (prepared : PreparedDeviceTopologyRemoval)
    (removal : DeviceRemoveResult) : Heedless (retraverse fun network topology scratch =>
      topology.removeDevice definitions network scratch device prepared removal) :=
  retraverse_heedless fun roomier run => TraversalScratch.removeDevice_follows roomier run

theorem removeDevice_heedless (device : DeviceId) : Heedless (removeDevice definitions device) := by
  intro self scratch roomier
  unfold removeDevice
  refine .get (.expect fun prepared => ?_)
  refine (onNetwork_heedless _ self scratch roomier).bind fun removal self scratch roomier => ?_
  refine .get (.expect fun physicalState => .set ?_)
  refine (topologyRemoval_heedless device prepared removal { self with physicalState } scratch roomier).bind
    fun _ self scratch roomier => ?_
  exact afterRemoval_heedless device removal self scratch roomier

/-- No command heeds what earlier traversals left in the scratch. -/
theorem applyCommand_heedless (command : WorldCommand F) : Heedless (applyCommand definitions command) := by
  cases command with
  | addWire wire => exact (onNetwork_heedless _).bind fun _ => retopologize_heedless _
  | removeWire wire =>
    exact (onNetwork_heedless _).bind fun _ => retraverse_heedless fun roomier run => TraversalScratch.removeWire_follows roomier run
  | connectWires wireA wireB => exact (onNetwork_heedless _).bind fun _ => retopologize_heedless _
  | disconnectWires wireA wireB =>
    exact (onNetwork_heedless _).bind fun _ => retraverse_heedless fun roomier run => TraversalScratch.disconnectWires_follows roomier run
  | addDevice device definition => exact addDevice_heedless device definition
  | removeDevice device => exact removeDevice_heedless device
  | attachTerminal wire device terminal => exact (onNetwork_heedless _).bind fun _ => retopologize_heedless _
  | detachTerminal wire device terminal =>
    exact (onNetwork_heedless _).bind fun _ => retraverse_heedless fun roomier run => TraversalScratch.detachTerminal_follows roomier run
  | setDeviceParameter device parameter value => exact (onNetwork_heedless _).bind fun _ => retopologize_heedless _

/-! ### Runs -/

variable {registry : DefinitionRegistry F} {self : Stores F}

/-- Commands, ticks and subscriptions on a world, and traversals over whatever networks with its
scratch. -/
inductive SharedStep : DefinitionRegistry F × Stores F → DefinitionRegistry F × Stores F → Prop
  | world {before after : DefinitionRegistry F × Stores F} (step : WorldStep before after) : SharedStep before after
  | traverse {registry : DefinitionRegistry F} {stores : Stores F} {traversal : Traversal F} {visited : Visited}
      {scratch : TraversalScratch}
      (run : traversal.run stores.topologyScratch = some (visited, scratch)) :
      SharedStep (registry, stores) (registry, { stores with topologyScratch := scratch })

/-- The worlds such steps lead to. -/
def SharedReached (registry : DefinitionRegistry F) (self : Stores F) : Prop :=
  ∃ start : DefinitionRegistry F, start.Reached ∧ ReflTransGen SharedStep (start, {}) (registry, self)

theorem SharedStep.sound {before next : DefinitionRegistry F × Stores F} (step : SharedStep before next)
    (reached : before.1.Reached) (sound : Sound before.1 before.2) : next.1.Reached ∧ Sound next.1 next.2 := by
  cases step with
  | world step => exact step.sound reached sound
  | traverse run =>
    obtain ⟨_, -, roomier⟩ := Traversal.run_follows sound.scratch.roomier run
    exact ⟨reached, sound.maintained, roomier.left, sound.states⟩

theorem SharedReached.sound (h : SharedReached registry self) : registry.Reached ∧ Sound registry self := by
  obtain ⟨start, reached, run⟩ := h
  suffices ∀ state, ReflTransGen SharedStep (start, ({} : Stores F)) state →
      state.1.Reached ∧ Sound state.1 state.2 from this _ run
  intro state run
  induction run with
  | refl => exact ⟨reached, .empty start⟩
  | tail _ step ih => exact step.sound ih.1 ih.2

/-- After any commands and traversals, a traversal with the world's scratch comes to an end and visits
exactly what its starts reach, each vertex once. Whatever it is over, it finds what it finds with a
scratch that was never used, and so a command leaves what it leaves with such a scratch. Every net and
every island of the world can be traversed. -/
theorem traversals_visit_reachable (reached : SharedReached registry self) :
    (∀ traversal : Traversal F, traversal.Fits → ∃ visited scratch unshared,
      traversal.run self.topologyScratch = some (visited, scratch) ∧ traversal.Visits visited ∧
        traversal.run {} = some (visited, unshared)) ∧
      (∀ (traversal : Traversal F) visited unshared, traversal.run {} = some (visited, unshared) →
        ∃ scratch, traversal.run self.topologyScratch = some (visited, scratch)) ∧
      (∀ command, FollowedBy (applyCommand registry command (self.withScratch {})) (applyCommand registry command self)) ∧
      (∀ netId net, self.derivedTopology.nets.get netId = some net →
        (Traversal.wires self.derivedTopology registry self.network netId).Fits) ∧
      ∀ islandId island affectedNets, self.derivedTopology.islands.get islandId = some island →
        (∀ net ∈ affectedNets, self.derivedTopology.islandOfNet net = some islandId) →
          (Traversal.island self.derivedTopology registry self.network islandId affectedNets).Fits := by
  obtain ⟨known, sound⟩ := reached.sound
  obtain ⟨consistent, nets, islands, -⟩ := sound.maintained
  refine ⟨fun traversal fits => ?_, fun traversal visited unshared fresh => ?_,
    fun command => applyCommand_heedless command _ _ sound.scratch.roomier_empty, fun netId net found => ?_,
    fun islandId island affectedNets found starts => ?_⟩
  · obtain ⟨visited, visits, runs⟩ := Traversal.run_spec fits
    obtain ⟨scratch, run, -⟩ := runs _ sound.scratch
    obtain ⟨unshared, fresh, -⟩ := runs {} TraversalScratch.sound_empty
    exact ⟨visited, scratch, unshared, run, visits, fresh⟩
  · obtain ⟨scratch, run, -⟩ := Traversal.run_follows sound.scratch.roomier_empty fresh
    exact ⟨scratch, run⟩
  · exact ⟨consistent, known.partitioned, nets.mono fun _ no => no.elim, net, found⟩
  · exact ⟨consistent, known.partitioned, nets, islands.mono fun _ no => no.elim, ⟨island, found⟩, starts⟩

theorem WorldReached.shared (h : WorldReached registry self) : SharedReached registry self := by
  obtain ⟨start, reached, run⟩ := h
  exact ⟨start, reached, run.lift id fun _ _ step => .world step⟩

/-- The net of two connected wires is walked after one of them was removed, and then what is left of
it, where the walk still meets the first wire only. -/
theorem traversals_visit_reachable_wires : ∃ joined cut : Stores ToppedRat,
    applyAll .new [.addWire (.ofIndex 0 (by decide)), .addWire (.ofIndex 1 (by decide)),
      .connectWires (.ofIndex 0 (by decide)) (.ofIndex 1 (by decide))] {} = some joined ∧
    applyAll .new [.removeWire (.ofIndex 1 (by decide))] joined = some cut ∧
    ∃ before after scratch scratch', (Traversal.wires joined.derivedTopology .new joined.network
        (.ofIndex 0 (by decide))).run cut.topologyScratch = some (before, scratch) ∧
      (Traversal.wires cut.derivedTopology .new cut.network (.ofIndex 0 (by decide))).run scratch =
        some (after, scratch') ∧
      (Traversal.wires cut.derivedTopology .new cut.network (.ofIndex 0 (by decide))).Visits after := by
  let net : NetId := .ofIndex 0 (by decide)
  have runs : ((applyAll (.new : DefinitionRegistry ToppedRat) [.addWire (.ofIndex 0 (by decide)),
      .addWire (.ofIndex 1 (by decide)), .connectWires (.ofIndex 0 (by decide)) (.ofIndex 1 (by decide))] {}).bind
      fun joined => (applyAll .new [.removeWire (.ofIndex 1 (by decide))] joined).map fun cut =>
        ((joined.derivedTopology.nets.get net).isSome, (cut.derivedTopology.nets.get net).isSome)) =
      some (true, true) := by decide +kernel
  obtain ⟨joined, ran, rest⟩ := Option.bind_eq_some_iff.mp runs
  obtain ⟨cut, ran', lives⟩ := Option.map_eq_some_iff.mp rest
  obtain ⟨liveJoined, liveCut⟩ := Prod.mk.inj lives
  obtain ⟨netJoined, heldJoined⟩ := Option.isSome_iff_exists.mp liveJoined
  obtain ⟨netCut, heldCut⟩ := Option.isSome_iff_exists.mp liveCut
  have reachedJoined : WorldReached .new joined := applyAll_reached ⟨.new, .new, .refl⟩ ran
  have reachedCut : WorldReached .new cut := applyAll_reached reachedJoined ran'
  have fits := (traversals_visit_reachable reachedJoined.shared).2.2.2.1 net netJoined heldJoined
  obtain ⟨before, scratch, -, run, -⟩ := (traversals_visit_reachable reachedCut.shared).1 _ fits
  have reached : SharedReached .new { cut with topologyScratch := scratch } := by
    obtain ⟨start, known, steps⟩ := reachedCut.shared
    exact ⟨start, known, steps.tail (.traverse run)⟩
  obtain ⟨after, scratch', -, run', visits, -⟩ := (traversals_visit_reachable reached).1 _
    ((traversals_visit_reachable reached).2.2.2.1 net netCut heldCut)
  exact ⟨joined, cut, ran, ran', before, after, scratch, scratch', run, run', visits⟩

end Stores

end Hynergy
