import Hynergy.World.Follow

/-!
# Devices come and go

The two commands that move rows: all stores prepare before the network commits, and after a
removal the devices whose rows moved are marked.
-/

namespace Hynergy

open Lib

variable {F : Type} [F64 F]

namespace Stores

variable {registry : DefinitionRegistry F} {self : Stores F}

/-- A failed command leaves the stores as they were, up to empty chunk hints. -/
def Unchanged (error : NetworkModelError) (before after : Stores F) : Prop :=
  after = before ∨ error = .deviceArenaExhausted ∧ ∃ n, after =
    { before with network :=
        before.network.withHints (before.network.deviceArena.activeChunks ++ List.replicate n none) }

omit [F64 F] in
theorem Sound.withHints (h : Sound registry self) {active : List (Option Nat)}
    (consistent : (self.network.withHints active).Consistent registry) :
    Sound registry { self with network := self.network.withHints active } :=
  ⟨h.maintained.withHints consistent, h.scratch, h.states.shaped, h.states.heads⟩

/-- The network makes room for the device, but its states or its islands do not fit. -/
theorem additionExcused_iff {device : DeviceId} {definitionId : DefinitionId} {prepared : PreparedDeviceInsert F}
    {definition : DeviceDefinition F} {network : Network F}
    (run : Network.prepareAddDevice registry device definitionId self.network = .ok prepared network)
    (known : registry.get definitionId = some definition) :
    Excused registry self (.addDevice device definitionId) ↔
      PhysicalStateStore.RowsOverflow prepared.location.row definition ∨
        self.derivedTopology.islands.unused < definition.partitionCount := by
  refine ⟨fun few => ?_, fun few => ⟨prepared, network, definition, run, known, few⟩⟩
  obtain ⟨_, _, _, ran, known', few⟩ := few
  obtain ⟨rfl, -⟩ := Outcome.ok.inj (run.symm.trans ran)
  obtain rfl := Option.some.inj (known.symm.trans known')
  exact few

theorem additionExcused_err {device : DeviceId} {definitionId : DefinitionId} {error : NetworkModelError}
    {network : Network F}
    (run : Network.prepareAddDevice registry device definitionId self.network = .err error network) :
    ¬ Excused registry self (.addDevice device definitionId) := by
  intro few
  obtain ⟨_, _, _, ran, -⟩ := few
  exact absurd (run.symm.trans ran) nofun

theorem addDevice_keeps (partitioned : registry.Partitioned) (h : Sound registry self) (device : DeviceId)
    (definitionId : DefinitionId) :
    Outcome.Meets (addDevice registry device definitionId self) (Excused registry self (.addDevice device definitionId))
      (fun _ after => ¬ Excused registry self (.addDevice device definitionId) ∧ Followed registry self after)
      fun error after => ¬ Excused registry self (.addDevice device definitionId) ∧
        Unchanged error self after ∧ Sound registry after := by
  unfold addDevice
  rcases Network.prepareAddDevice_spec h.consistent device definitionId with
    ⟨prepared, definition, active, run, rfl, rfl, consistent, ready⟩ | ⟨e, run⟩ | ⟨n, run, consistent⟩
  · rw [Call.bind_ok (onNetwork_ok run), ready.known, Call.expect_some_bind, Call.get_bind]
    have hinted := h.withHints consistent
    have excused := additionExcused_iff run ready.known
    have stateInsert :=
      PhysicalStateStore.Aligned.addDevice_spec hinted.states consistent.arena ready.prepared ready.known
    have topologyInsert := DerivedTopology.addDevice_maintains partitioned hinted.maintained ready
    cases prepareStates : self.physicalState.prepareAddDevice definition prepared with
    | none =>
      rw [prepareStates] at stateInsert
      exact excused.mpr (Or.inl stateInsert)
    | some stateRow =>
    obtain ⟨fits, commitStates⟩ := stateInsert.of_run prepareStates
    rw [Call.expect_some_bind]
    cases prepareTopology : self.derivedTopology.prepareAddDevice definition prepared with
    | none =>
      rw [prepareTopology] at topologyInsert
      exact excused.mpr (Or.inr topologyInsert)
    | some ours =>
    obtain ⟨enough, commitTopology⟩ := topologyInsert.of_run prepareTopology
    have fine : ¬ Excused registry self (.addDevice prepared.device prepared.definitionId) :=
      fun few => (excused.mp few).elim fits (Nat.not_lt.mpr enough)
    rw [Call.expect_some_bind]
    obtain ⟨result, network, commit, consistent', location, created, added⟩ :=
      Network.commitAddDevice_spec consistent ready
    rw [Call.bind_ok (onNetwork_ok commit), Call.get_bind]
    obtain ⟨physicalState, push, aligned, fresh, kept⟩ :=
      commitStates result network.deviceArena added.inserted location created
    dsimp only
    rw [push, Call.expect_some_bind, Call.set_bind]
    unfold retopologize
    rw [Call.get_bind]
    dsimp only
    have commits := commitTopology result network consistent' added location created
    cases committed : self.derivedTopology.commitAddDevice prepared.device ours result with
    | none =>
      rw [committed] at commits
      exact absurd commits not_false
    | some topology =>
      refine ⟨fine, ⟨(commits.of_run committed).maintained, h.scratch, aligned⟩, fun other live _ => ?_,
        fun other free live => ?_⟩
      · refine kept other fun same => ?_
        rw [same, show self.network.record prepared.device = none from ready.free] at live
        simp at live
      · by_cases same : other = prepared.device
        · subst same
          exact ⟨_, fresh, rfl, fun v member => (List.mem_replicate.mp member).2⟩
        · rw [show network.record other = self.network.record other from added.inserted.kept other same,
            free] at live
          simp at live
  · exact .of_err (Call.bind_err (onNetwork_err run)) ⟨additionExcused_err run, Or.inl rfl, h⟩
  · exact .of_err (Call.bind_err (onNetwork_err run))
      ⟨additionExcused_err run, Or.inr ⟨rfl, n, rfl⟩, h.withHints consistent⟩

/-! ### Removing a device -/

omit [F64 F] in
/-- Resident devices are marked. -/
theorem markMoved_spec (partitioned : registry.Partitioned) (devices : List DeviceId) {self : Stores F}
    (h : DerivedTopology.Maintained registry self.network self.derivedTopology)
    (resident : ∀ device ∈ devices, (self.network.record device).isSome = true) :
    ∃ topology, markMoved devices self = .ok () { self with derivedTopology := topology } ∧
      DerivedTopology.Maintained registry self.network topology := by
  induction devices generalizing self with
  | nil => exact ⟨self.derivedTopology, rfl, h⟩
  | cons device rest ih =>
    obtain ⟨row, found⟩ := Option.isSome_iff_exists.mp (resident device List.mem_cons_self)
    obtain ⟨islands, marked, -, run, m⟩ := DerivedTopology.markDeviceBindingDirty_spec h partitioned found
    have first : retopologize (fun network topology => topology.markDeviceBindingDirty network device) self =
        .ok () { self with derivedTopology := marked } := by
      unfold retopologize
      rw [Call.get_bind]
      dsimp only
      rw [run, Call.expect_some_bind, Call.set_apply]
    obtain ⟨topology, later, maintained⟩ := @ih { self with derivedTopology := marked } m.maintained
      fun other member => resident other (List.mem_cons_of_mem _ member)
    refine ⟨topology, ?_, maintained⟩
    show ((retopologize fun network topology => topology.markDeviceBindingDirty network device) >>=
      fun _ => markMoved rest) self = _
    rw [Call.bind_ok first]
    exact later

omit [F64 F] in
/-- The devices whose rows a removal moved are still there. -/
theorem moved_resident {network network' : Network F} {device : DeviceId} {row : DeviceRow F} {loc : Loc}
    {chunk : DeviceChunk F} {result : DeviceRemoveResult} (consistent : network.Consistent registry)
    (removed : Network.DeviceRemoved registry network network' device row loc chunk result) :
    (∀ moved ∈ result.movedDevice.toList, (network'.record moved).isSome = true) ∧
      ∀ relocation, result.chunkRelocation = some relocation → ∃ devices,
        network'.deviceIdsInChunk relocation.toChunk = some devices ∧
        ∀ moved ∈ devices, (network'.record moved).isSome = true := by
  have result' := removed.removed.result
  constructor
  · intro moved member
    have mover := Option.mem_toList.mp member
    rw [result'.2.2.1] at mover
    split at mover
    · rename_i elsewhere
      have located := consistent.arena.locAt_of_chunk removed.inArena mover
      have other : moved ≠ device := by
        intro same
        rw [same, removed.located] at located
        exact elsewhere (congrArg Prod.snd (Option.some.inj located))
      have found : (network.record moved).isSome = true := by
        rw [Option.isSome_iff_ne_none]
        intro none'
        rw [consistent.arena.record_eq_none.mp none'] at located
        simp at located
      rwa [show network'.record moved = network.record moved from removed.removed.kept moved other]
    · simp at mover
  · intro relocation relocated
    rw [result'.2.2.2] at relocated
    split at relocated
    · rename_i emptied
      obtain rfl := Option.some.inj relocated
      obtain ⟨rest, -, -, chunks⟩ := removed.removed.chunks
      rw [if_pos emptied.1] at chunks
      have inside : loc.1 < network.deviceArena.chunks.length := (List.getElem?_eq_some_iff.mp removed.inArena).1
      have there : loc.1 < network'.deviceArena.chunks.length := by
        rw [chunks, length_swapRemove]
        have := emptied.2
        omega
      refine ⟨_, by rw [Network.deviceIdsInChunk, DeviceArena.deviceIdsInChunk,
        List.getElem?_eq_getElem there, Option.map_some], fun moved member => ?_⟩
      obtain ⟨r, read⟩ := List.mem_iff_getElem?.mp member
      have located := removed.removed.consistent.locAt_of_chunk (List.getElem?_eq_getElem there) read
      rw [Option.isSome_iff_ne_none]
      intro none'
      rw [removed.removed.consistent.record_eq_none.mp none'] at located
      simp at located
    · simp at relocated

/-- Removing a device that is not there panics: its row is looked up before the network is asked. -/
theorem removeDevice_absent {device : DeviceId} (h : Sound registry self)
    (absent : self.network.record device = none) : removeDevice registry device self = .panic := by
  have unprepared : self.derivedTopology.prepareDeviceRemoval self.network device = none := by
    unfold DerivedTopology.prepareDeviceRemoval
    rw [Network.locationOf_eq, h.consistent.arena.record_eq_none.mp absent]
    rfl
  unfold removeDevice
  rw [Call.get_bind, unprepared]
  rfl

theorem removeDevice_keeps (partitioned : registry.Partitioned) (h : Sound registry self) (device : DeviceId) :
    Keeps registry self (.removeDevice device) := by
  show Outcome.Meets (removeDevice registry device self) _ _ _
  rcases Network.removeDevice_spec h.consistent device with
    ⟨row, loc, chunk, result, network, run, consistent, removed⟩ | ⟨-, absent⟩
  swap
  · rw [removeDevice_absent h absent]
    exact Or.inl absent
  obtain ⟨prepared, prepare, removes⟩ :=
    DerivedTopology.removeDevice_maintains partitioned h.maintained consistent removed h.scratch
  obtain ⟨states, dropped, aligned, -, kept⟩ := PhysicalStateStore.Aligned.removeDevice_spec h.states
    h.consistent.arena removed.located removed.inArena removed.removed
  obtain ⟨mover, movers⟩ := moved_resident h.consistent removed
  have excused : Excused registry self (.removeDevice device) ↔
      DerivedTopology.IslandsShort (network.wiring registry) self.derivedTopology prepared.affectedIslands := by
    have resident : self.network.record device ≠ none := by
      rw [show self.network.record device = some row from removed.found]
      exact nofun
    rw [removed.wiring]
    refine (or_iff_right resident).trans ⟨fun few => ?_, fun few => ⟨prepared, prepare, few⟩⟩
    obtain ⟨prepared', prepare', few⟩ := few
    obtain rfl := Option.some.inj (prepare.symm.trans prepare')
    exact few
  unfold removeDevice
  rw [Call.get_bind, prepare, Call.expect_some_bind, Call.bind_ok (onNetwork_ok run), Call.get_bind]
  dsimp only
  rw [dropped, Call.expect_some_bind, Call.set_bind]
  cases edited : self.derivedTopology.removeDevice registry network self.topologyScratch device prepared result with
  | none =>
    rw [edited] at removes
    have panics : retraverse (fun network topology scratch =>
        topology.removeDevice registry network scratch device prepared result)
          { self with network, physicalState := states } = .panic := by
      unfold retraverse
      rw [Call.get_bind]
      dsimp only
      rw [edited]
      rfl
    rw [Call.bind_panic panics]
    exact excused.mpr removes
  | some edit =>
  obtain ⟨enough, maintains, scratch⟩ := removes.of_run edited
  have fine : ¬ Excused registry self (.removeDevice device) := fun few => enough (excused.mp few)
  have traversed : retraverse (fun network topology scratch =>
      topology.removeDevice registry network scratch device prepared result)
        { self with network, physicalState := states } =
      .ok () { self with network, physicalState := states, derivedTopology := edit.1, topologyScratch := edit.2 } := by
    unfold retraverse
    rw [Call.get_bind]
    dsimp only
    rw [edited]
    rfl
  rw [Call.bind_ok traversed]
  obtain ⟨topology, marks, maintained⟩ := @markMoved_spec _ _ partitioned result.movedDevice.toList
    { self with network, physicalState := states, derivedTopology := edit.1, topologyScratch := edit.2 }
    maintains.maintained mover
  rw [Call.bind_ok marks]
  -- whatever was marked, the rows are where the model put them
  have final : ∀ topology, DerivedTopology.Maintained registry network topology →
      Followed registry self { self with
        network, physicalState := states, derivedTopology := topology, topologyScratch := edit.2,
        subscriptions := self.subscriptions.removeDevice device } := by
    intro topology maintained
    refine ⟨⟨maintained, scratch, aligned⟩, fun other _ live => kept other ?_, fun other free live => ?_⟩
    · intro same
      rw [same, show network.record device = none from removed.removed.removed] at live
      simp at live
    · by_cases same : other = device
      · rw [same, show network.record device = none from removed.removed.removed] at live
        simp at live
      · rw [show network.record other = self.network.record other from removed.removed.kept other same,
          free] at live
        simp at live
  cases relocates : result.chunkRelocation with
  | none => exact ⟨fine, final topology maintained⟩
  | some relocation =>
    obtain ⟨devices, listed, resident⟩ := movers relocation relocates
    obtain ⟨topology', marks', maintained'⟩ := @markMoved_spec _ _ partitioned devices
      { self with network, physicalState := states, derivedTopology := topology, topologyScratch := edit.2 }
      maintained resident
    dsimp only
    rw [Call.get_bind]
    dsimp only
    rw [listed, Call.expect_some_bind, Call.bind_ok marks']
    exact ⟨fine, final topology' maintained'⟩

end Stores

end Hynergy
