import Hynergy.World.Follow

/-!
# Ticks

What a tick does to the stores, whatever the runtimes of the islands answer: the pending
invalidations are worked off, the outputs of all islands are validated and only then written,
and the observations are published.
-/

namespace Hynergy

open Lib

variable {F : Type}

/-- What an island has for a state: the solved value, or what the failure rule gives. -/
inductive OutputValue (F : Type) where
  | solved (value : F)
  | preserve (initializer : DefinitionStateInitializer F)
  | literal (value : F)

structure StateOutput (F : Type) where
  state : DeviceState
  address : PhysicalStateAddress
  value : OutputValue F

namespace StateOutput

/-- `validate_destination` and `validate_failed`. -/
def validate (self : StateOutput F) (store : PhysicalStateStore F) : Option (Except PhysicalStateError Unit) :=
  match self.value with
  | .solved _ | .literal _ => some (store.validateAddress self.state self.address)
  | .preserve initializer =>
    (store.readLogicalAt self.state.device self.address initializer).map fun read => read.map fun _ => ()

/-- The value to write; a preserved one is read again. -/
def written (self : StateOutput F) (store : PhysicalStateStore F) : Option F :=
  match self.value with
  | .solved value | .literal value => some value
  | .preserve initializer => (store.readLogicalAt self.state.device self.address initializer).bind Except.toOption

def scatter (self : StateOutput F) (store : PhysicalStateStore F) : Option (PhysicalStateStore F) := do
  let value ← self.written store
  store.writePrevalidated self.address value

end StateOutput

/-- The answers of the runtimes in a tick, as far as the stores see them. -/
structure TickAnswers (F : Type) where
  synced : Bool
  solved : Bool
  outputs : List (StateOutput F)
  published : ObserverSubscription → Option PublishedObservation

inductive TickFailure where
  | sync
  | solve
  | state (error : PhysicalStateError)

namespace PhysicalStateStore

/-- The first output that is not valid ends the tick. -/
def validateOutputs (self : PhysicalStateStore F) : List (StateOutput F) → Option (Except PhysicalStateError Unit)
  | [] => some (.ok ())
  | output :: outputs =>
    match output.validate self with
    | some (.ok ()) => self.validateOutputs outputs
    | failed => failed

def scatterOutputs (self : PhysicalStateStore F) (outputs : List (StateOutput F)) :
    Option (PhysicalStateStore F) :=
  outputs.foldlM (fun store output => output.scatter store) self

def finalizeOutputs (self : PhysicalStateStore F) (outputs : List (StateOutput F)) :
    Option (PhysicalStateStore F) :=
  outputs.foldlM (fun store output => store.markInitializedPrevalidated output.address.location) self

end PhysicalStateStore

namespace Stores

/-- `commit_runtime_state_outputs`. -/
def commitOutputs (outputs : List (StateOutput F)) : Call (Stores F) TickFailure Unit := do
  let self ← Call.get
  let validated ← Call.expect (self.physicalState.validateOutputs outputs)
  Call.ofExcept .state validated
  let scattered ← Call.expect (self.physicalState.scatterOutputs outputs)
  let physicalState ← Call.expect (scattered.finalizeOutputs outputs)
  Call.set { self with physicalState }

def publish (published : ObserverSubscription → Option PublishedObservation) (self : Stores F) : Stores F :=
  let subscriptions := self.subscriptions.subscriptions.map fun subscription =>
    match published subscription with
    | some observation => subscription.setPublished observation
    | none => subscription
  { self with subscriptions := { self.subscriptions with subscriptions } }

/-- `tick_inner`. -/
def tick (answers : TickAnswers F) : Call (Stores F) TickFailure Unit := do
  Call.rejectIf (answers.synced = false) .sync
  Call.modify fun self => { self with derivedTopology := self.derivedTopology.clearInvalidation }
  Call.rejectIf (answers.solved = false) .solve
  commitOutputs answers.outputs
  Call.modify (publish answers.published)

end Stores

/-! ### Addresses -/

namespace PhysicalStateStore

variable {registry : DefinitionRegistry F} {self next : PhysicalStateStore F} {arena : DeviceArena F}
  {address : PhysicalStateAddress} {output : StateOutput F} {outputs : List (StateOutput F)}

/-- There is such a state. -/
def HasState (self : PhysicalStateStore F) (address : PhysicalStateAddress) : Prop :=
  ∃ chunk, self.chunks[address.location.chunkIndex]? = some chunk ∧ address.location.row < chunk.rowCount ∧
    address.stateIndex < chunk.stateCount

theorem hasState_of_validateAddress {state : DeviceState} (h : self.validateAddress state address = .ok ()) :
    self.HasState address := by
  unfold validateAddress at h
  split at h
  · exact absurd h nofun
  · split at h
    · exact absurd h nofun
    · rename_i chunk hc
      dsimp only at h
      split at h
      · exact absurd h nofun
      · exact ⟨chunk, hc, by omega, by omega⟩

theorem hasState_of_readLogicalAt {device : DeviceId} {initializer : DefinitionStateInitializer F} {value : F}
    (h : self.readLogicalAt device address initializer = some (.ok value)) : self.HasState address := by
  have rejected : ∀ stateIndex, (stateNotInitialized device stateIndex).map Except.error ≠ some (.ok value) := by
    intro stateIndex same
    obtain ⟨error, -, wrong⟩ := Option.map_eq_some_iff.mp same
    exact absurd wrong nofun
  unfold readLogicalAt at h
  split at h
  · exact absurd h (rejected _)
  · rename_i chunk hc
    dsimp only at h
    split at h
    · exact absurd h (rejected _)
    · exact ⟨chunk, hc, by omega, by omega⟩

/-- A validated output has its state. -/
theorem hasState_of_validate (h : output.validate self = some (.ok ())) : self.HasState output.address := by
  unfold StateOutput.validate at h
  split at h
  · exact hasState_of_validateAddress (Option.some.inj h)
  · exact hasState_of_validateAddress (Option.some.inj h)
  · obtain ⟨read, run, ok⟩ := Option.map_eq_some_iff.mp h
    cases read with
    | error e => exact absurd ok nofun
    | ok value => exact hasState_of_readLogicalAt run

theorem hasState_of_validateOutputs (h : self.validateOutputs outputs = some (.ok ())) :
    ∀ output ∈ outputs, self.HasState output.address := by
  induction outputs with
  | nil => exact fun _ member => absurd member List.not_mem_nil
  | cons output outputs ih =>
    rw [validateOutputs] at h
    split at h
    · rename_i valid
      intro other member
      rcases List.mem_cons.mp member with rfl | member
      · exact hasState_of_validate valid
      · exact ih h other member
    · rename_i failed
      exact absurd h failed

namespace Aligned

/-- The state is one of a resident device. -/
theorem resident (h : Aligned registry self arena) (consistent : arena.Consistent registry)
    (has : self.HasState address) : ∃ device row, arena.locAt device.index = some address.location.loc ∧
      self.rowOf arena device = some row ∧ address.stateIndex < row.values.length := by
  obtain ⟨chunk, hc, hr, hi⟩ := has
  have inside : address.location.chunkIndex < arena.chunks.length := by
    rw [← Sidecar.Aligned.length h]
    exact (List.getElem?_eq_some_iff.mp hc).1
  obtain ⟨side, hside, shaped, -, count⟩ := Sidecar.Aligned.beside h (List.getElem?_eq_getElem inside)
  obtain rfl := Option.some.inj (hc.symm.trans hside)
  have count : chunk.rowCount = arena.chunks[address.location.chunkIndex].deviceIds.length := count
  have here : address.location.row < arena.chunks[address.location.chunkIndex].deviceIds.length := count ▸ hr
  have located := consistent.locAt_of_chunk (List.getElem?_eq_getElem inside) (List.getElem?_eq_getElem here)
  obtain ⟨chunk', hc', -, hr', -, found⟩ := @site _ _ _ _ _ h consistent address.location located
  obtain rfl := Option.some.inj (hc.symm.trans hc')
  exact ⟨_, _, located, found, by rw [StateChunk.length_rowOf shaped hr]; exact hi⟩

/-- Stores beside one arena have the same states. -/
theorem hasState_iff (h : Aligned registry self arena) (h' : Aligned registry next arena) :
    self.HasState address → next.HasState address := by
  rintro ⟨chunk, hc, hr, hi⟩
  have heads := congrArg (·[address.location.chunkIndex]?) (h.heads.trans h'.heads.symm)
  simp only [List.getElem?_map, hc, Option.map_some] at heads
  obtain ⟨chunk', hc', same⟩ := Option.map_eq_some_iff.mp heads.symm
  obtain ⟨width, count⟩ := Prod.mk.inj same
  exact ⟨chunk', hc', (show chunk'.rowCount = chunk.rowCount from count) ▸ hr,
    (show chunk'.stateCount = chunk.stateCount from width) ▸ hi⟩

/-- Where a store differs from another: at the rows of devices with outputs, and in values and bits only. -/
structure Rewritten (registry : DefinitionRegistry F) (arena : DeviceArena F) (outputs : List (StateOutput F))
    (before after : PhysicalStateStore F) : Prop where
  aligned : Aligned registry after arena
  kept : ∀ device, (∀ output ∈ outputs, arena.locAt device.index ≠ some output.address.location.loc) →
    after.rowOf arena device = before.rowOf arena device

theorem Rewritten.refl (h : Aligned registry self arena) (outputs : List (StateOutput F)) :
    Rewritten registry arena outputs self self := ⟨h, fun _ _ => rfl⟩

theorem Rewritten.trans {first second third : PhysicalStateStore F}
    (h : Rewritten registry arena outputs first second) (h' : Rewritten registry arena outputs second third) :
    Rewritten registry arena outputs first third :=
  ⟨h'.aligned, fun device apart => (h'.kept device apart).trans (h.kept device apart)⟩

theorem scatter_rewrites (h : Aligned registry self arena) (consistent : arena.Consistent registry)
    (has : self.HasState output.address) (member : output ∈ outputs) (run : output.scatter self = some next) :
    Rewritten registry arena outputs self next := by
  obtain ⟨device, row, located, found, inside⟩ := h.resident consistent has
  obtain ⟨value, -, written⟩ := Option.bind_eq_some_iff.mp run
  obtain ⟨next', run', aligned, rows⟩ := h.writePrevalidated_spec consistent located found inside value
  obtain rfl := Option.some.inj (run'.symm.trans written)
  refine ⟨aligned, fun other apart => ?_⟩
  rw [rows, if_neg]
  rintro rfl
  exact apart output member located

theorem mark_rewrites (h : Aligned registry self arena) (consistent : arena.Consistent registry)
    (has : self.HasState output.address) (member : output ∈ outputs)
    (run : self.markInitializedPrevalidated output.address.location = some next) :
    Rewritten registry arena outputs self next := by
  obtain ⟨device, row, located, found, -⟩ := h.resident consistent has
  obtain ⟨next', run', aligned, rows⟩ := h.markInitializedPrevalidated_spec consistent located found
  obtain rfl := Option.some.inj (run'.symm.trans run)
  refine ⟨aligned, fun other apart => ?_⟩
  rw [rows, if_neg]
  rintro rfl
  exact apart output member located

/-- Steps that each rewrite at an output, one after the other. -/
theorem foldlM_rewrites {step : PhysicalStateStore F → StateOutput F → Option (PhysicalStateStore F)}
    (steps : ∀ (before after : PhysicalStateStore F) (output : StateOutput F), Aligned registry before arena →
      before.HasState output.address → output ∈ outputs → step before output = some after →
      Rewritten registry arena outputs before after) (h : Aligned registry self arena)
    (list : List (StateOutput F)) (among : ∀ output ∈ list, output ∈ outputs)
    (has : ∀ output ∈ list, self.HasState output.address) (run : list.foldlM step self = some next) :
    Rewritten registry arena outputs self next := by
  induction list generalizing self with
  | nil =>
    obtain rfl := Option.some.inj run
    exact .refl h outputs
  | cons output list ih =>
    rw [List.foldlM_cons] at run
    obtain ⟨middle, first, rest⟩ := Option.bind_eq_some_iff.mp run
    have rewritten := steps self middle output h (has output List.mem_cons_self) (among output List.mem_cons_self) first
    refine rewritten.trans (ih rewritten.aligned (fun other member => among other (List.mem_cons_of_mem _ member))
      (fun other member => ?_) rest)
    exact h.hasState_iff rewritten.aligned (has other (List.mem_cons_of_mem _ member))

end Aligned

end PhysicalStateStore

/-! ### What a tick leaves -/

namespace Stores

variable {registry : DefinitionRegistry F} {self after : Stores F}

/-- A tick changes no more than the states of devices with outputs, the pending invalidations and
what is published. -/
structure Ticked (registry : DefinitionRegistry F) (outputs : List (StateOutput F)) (before after : Stores F) :
    Prop where
  sound : Sound registry after
  network : after.network = before.network
  topology : after.derivedTopology = before.derivedTopology ∨
    after.derivedTopology = before.derivedTopology.clearInvalidation
  kept : ∀ device,
    (∀ output ∈ outputs, before.network.deviceArena.locAt device.index ≠ some output.address.location.loc) →
    after.statesOf device = before.statesOf device

theorem Sound.cleared (h : Sound registry self) :
    Sound registry { self with derivedTopology := self.derivedTopology.clearInvalidation } := by
  obtain ⟨⟨consistent, nets, islands, -⟩, scratch, states⟩ := h
  refine ⟨⟨consistent, ?_, ?_, ⟨?_, ?_, ?_, ?_⟩⟩, scratch, states⟩
  · exact ⟨nets.sound, nets.live, nets.named, nets.nodup, nets.mapped, nets.wires, nets.terminals, nets.coarse,
      nets.exact⟩
  · exact ⟨islands.sound, ⟨islands.beside.arena, islands.beside.aligned⟩, islands.map, islands.removed, islands.alive, islands.named, islands.nodup,
      islands.members, islands.nonempty, islands.anchored, islands.reached, islands.coarse, islands.exact⟩
  all_goals exact fun j member => absurd member List.not_mem_nil

theorem Ticked.refl (h : Sound registry self) (outputs : List (StateOutput F)) :
    Ticked registry outputs self self := ⟨h, rfl, Or.inl rfl, fun _ _ => rfl⟩

theorem Ticked.cleared (h : Sound registry self) (outputs : List (StateOutput F)) :
    Ticked registry outputs self { self with derivedTopology := self.derivedTopology.clearInvalidation } :=
  ⟨h.cleared, rfl, Or.inr rfl, fun _ _ => rfl⟩

theorem Ticked.publish {outputs : List (StateOutput F)} {before : Stores F} (h : Ticked registry outputs before self)
    (published : ObserverSubscription → Option PublishedObservation) :
    Ticked registry outputs before (publish published self) :=
  ⟨⟨h.sound.maintained, h.sound.scratch, h.sound.states⟩, h.network, h.topology, h.kept⟩

theorem commitOutputs_leaves (h : Sound registry self) (outputs : List (StateOutput F))
    (left : (commitOutputs outputs self).Leaves after) :
    after = self ∨ ∃ states, after = { self with physicalState := states } ∧
      PhysicalStateStore.Aligned.Rewritten registry self.network.deviceArena outputs self.physicalState states := by
  unfold commitOutputs at left
  rw [Call.get_bind] at left
  cases validated : self.physicalState.validateOutputs outputs with
  | none =>
    rw [validated] at left
    exact absurd left (by rintro (⟨_, wrong⟩ | ⟨_, wrong⟩) <;> exact absurd wrong nofun)
  | some result =>
    rw [validated, Call.expect_some_bind] at left
    cases result with
    | error e =>
      rw [Call.ofExcept_error_bind] at left
      exact Or.inl (left.of_err rfl)
    | ok =>
      rw [Call.ofExcept_ok_bind] at left
      have has := PhysicalStateStore.hasState_of_validateOutputs validated
      have consistent := h.consistent.arena
      cases scattered : self.physicalState.scatterOutputs outputs with
      | none =>
        rw [scattered] at left
        exact absurd left (by rintro (⟨_, wrong⟩ | ⟨_, wrong⟩) <;> exact absurd wrong nofun)
      | some store =>
        have first := PhysicalStateStore.Aligned.foldlM_rewrites (fun _ _ _ aligned has member run =>
          aligned.scatter_rewrites consistent has member run) h.states outputs (fun _ member => member) has scattered
        rw [scattered, Call.expect_some_bind] at left
        cases finalized : store.finalizeOutputs outputs with
        | none =>
          rw [finalized] at left
          exact absurd left (by rintro (⟨_, wrong⟩ | ⟨_, wrong⟩) <;> exact absurd wrong nofun)
        | some states =>
          have second := PhysicalStateStore.Aligned.foldlM_rewrites (fun _ _ _ aligned has member run =>
            aligned.mark_rewrites consistent has member run) first.aligned outputs (fun _ member => member)
            (fun output member => h.states.hasState_iff first.aligned (has output member)) finalized
          rw [finalized, Call.expect_some_bind] at left
          exact Or.inr ⟨states, left.of_ok rfl, first.trans second⟩

theorem tick_leaves (h : Sound registry self) (answers : TickAnswers F) (left : (tick answers self).Leaves after) :
    Ticked registry answers.outputs self after := by
  unfold tick at left
  by_cases synced : answers.synced = false
  · rw [Call.rejectIf_bind_pos synced] at left
    rw [left.of_err rfl]
    exact .refl h _
  · rw [Call.rejectIf_bind_neg synced, Call.modify_bind] at left
    by_cases solved : answers.solved = false
    · rw [Call.rejectIf_bind_pos solved] at left
      rw [left.of_err rfl]
      exact .cleared h _
    · rw [Call.rejectIf_bind_neg solved] at left
      have cleared : Ticked registry answers.outputs self _ := .cleared h answers.outputs
      have ticked : ∀ middle, (commitOutputs answers.outputs
          { self with derivedTopology := self.derivedTopology.clearInvalidation }).Leaves middle →
          Ticked registry answers.outputs self middle := by
        intro middle reached
        rcases commitOutputs_leaves h.cleared answers.outputs reached with rfl | ⟨states, rfl, rewritten⟩
        · exact cleared
        · exact ⟨⟨h.cleared.maintained, h.scratch, rewritten.aligned⟩, rfl, Or.inr rfl, rewritten.kept⟩
      cases run : commitOutputs answers.outputs
          { self with derivedTopology := self.derivedTopology.clearInvalidation } with
      | ok value middle =>
        rw [Call.bind_ok run] at left
        rw [left.of_ok rfl]
        exact (ticked middle (Or.inl ⟨value, run⟩)).publish _
      | err error middle =>
        rw [Call.bind_err run] at left
        rw [left.of_err rfl]
        exact ticked middle (Or.inr ⟨error, run⟩)
      | panic =>
        rw [Call.bind_panic run] at left
        exact absurd left (by rintro (⟨_, wrong⟩ | ⟨_, wrong⟩) <;> exact absurd wrong nofun)

end Stores

end Hynergy
