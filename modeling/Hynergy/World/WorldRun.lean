import Hynergy.World.CommandRun
import Hynergy.World.Tick

/-!
# Runs of a world

Commands, ticks, subscriptions and registrations in any order. In every state they lead to, a
command either goes through or is refused and changes nothing, and the rows of the stores lie
beside those of the model.
-/

namespace Hynergy

open Lib Relation

variable {F : Type} [F64 F]

namespace Stores

/-! ### Subscribing -/

def subscribeObserver (definitions : DefinitionRegistry F) (device : DeviceId) (observer : DefinitionObserverId) :
    Call (Stores F) SubscriptionError SubscriptionId := do
  let self ← Call.get
  let definitionId ← Call.okOr (self.network.definitionIdOf device) (.unknownDevice device)
  let definition ← Call.expect (definitions.get definitionId)
  let definitionObserver ← Call.okOr (definition.observer observer) (.unknownObserver device observer)
  let (id, subscriptions) ← Call.expect
    (self.subscriptions.insert ⟨device, observer⟩ definitionObserver.partition)
  Call.set { self with subscriptions }
  Call.okOr id .idExhausted

def unsubscribe (subscription : SubscriptionId) : Call (Stores F) SubscriptionError Unit := do
  let self ← Call.get
  let (removed, subscriptions) := self.subscriptions.remove subscription
  Call.set { self with subscriptions }
  Call.rejectIf (removed = false) (.unknownSubscription subscription)

variable {registry : DefinitionRegistry F} {self after : Stores F}

omit [F64 F] in
/-- The other stores do not look at the subscriptions. -/
theorem Sound.subscriptions (h : Sound registry self) (subscriptions : SubscriptionRegistry) :
    Sound registry { self with subscriptions } := ⟨h.maintained, h.scratch, h.states⟩

/-- Only the subscriptions change. -/
def OnlySubscriptions (before after : Stores F) : Prop :=
  ∃ subscriptions, after = { before with subscriptions }

omit [F64 F] in
theorem unsubscribe_leaves {subscription : SubscriptionId}
    (left : (unsubscribe subscription self).Leaves after) : OnlySubscriptions self after := by
  unfold unsubscribe at left
  rw [Call.get_bind] at left
  dsimp only at left
  rw [Call.set_bind, Call.rejectIf] at left
  split at left
  · exact ⟨_, left.of_err rfl⟩
  · exact ⟨_, left.of_ok rfl⟩

theorem subscribeObserver_leaves {device : DeviceId} {observer : DefinitionObserverId}
    (left : (subscribeObserver registry device observer self).Leaves after) : OnlySubscriptions self after := by
  have panics : ∀ {P : Prop}, (Outcome.panic : Outcome (Stores F) SubscriptionError SubscriptionId).Leaves after → P := by
    rintro P (⟨_, wrong⟩ | ⟨_, wrong⟩) <;> exact absurd wrong nofun
  unfold subscribeObserver at left
  rw [Call.get_bind] at left
  cases known : self.network.definitionIdOf device with
  | none =>
    rw [known, Call.okOr_none_bind] at left
    exact ⟨_, left.of_err rfl⟩
  | some definitionId =>
    rw [known, Call.okOr_some_bind] at left
    cases found : registry.get definitionId with
    | none =>
      rw [found] at left
      exact panics left
    | some definition =>
      rw [found, Call.expect_some_bind] at left
      cases observed : definition.observer observer with
      | none =>
        rw [observed, Call.okOr_none_bind] at left
        exact ⟨_, left.of_err rfl⟩
      | some definitionObserver =>
        rw [observed, Call.okOr_some_bind] at left
        cases inserted : self.subscriptions.insert ⟨device, observer⟩ definitionObserver.partition with
        | none =>
          rw [inserted] at left
          exact panics left
        | some result =>
          obtain ⟨id, subscriptions⟩ := result
          rw [inserted, Call.expect_some_bind] at left
          dsimp only at left
          rw [Call.set_bind] at left
          cases id with
          | none => exact ⟨_, left.of_err rfl⟩
          | some id => exact ⟨_, left.of_ok rfl⟩

/-! ### Runs -/

/-- Commands, ticks and subscriptions on a world, and definitions registered beside it. -/
inductive WorldStep : DefinitionRegistry F × Stores F → DefinitionRegistry F × Stores F → Prop
  | register {registry next : DefinitionRegistry F} {stores : Stores F} (extends' : next.Extends registry)
      (reached : next.Reached) : WorldStep (registry, stores) (next, stores)
  | command {registry : DefinitionRegistry F} {stores after : Stores F} (command : WorldCommand F)
      (leaves : (applyCommand registry command stores).Leaves after) : WorldStep (registry, stores) (registry, after)
  | tick {registry : DefinitionRegistry F} {stores after : Stores F} (answers : TickAnswers F)
      (leaves : (Stores.tick answers stores).Leaves after) : WorldStep (registry, stores) (registry, after)
  | subscribe {registry : DefinitionRegistry F} {stores after : Stores F} (device : DeviceId)
      (observer : DefinitionObserverId) (leaves : (subscribeObserver registry device observer stores).Leaves after) :
      WorldStep (registry, stores) (registry, after)
  | unsubscribe {registry : DefinitionRegistry F} {stores after : Stores F} (subscription : SubscriptionId)
      (leaves : (Stores.unsubscribe subscription stores).Leaves after) : WorldStep (registry, stores) (registry, after)

/-- The worlds a registry and runs lead to. -/
def WorldReached (registry : DefinitionRegistry F) (self : Stores F) : Prop :=
  ∃ start : DefinitionRegistry F, start.Reached ∧ ReflTransGen WorldStep (start, {}) (registry, self)

theorem WorldStep.sound {before next : DefinitionRegistry F × Stores F} (step : WorldStep before next)
    (reached : before.1.Reached) (sound : Sound before.1 before.2) : next.1.Reached ∧ Sound next.1 next.2 := by
  cases step with
  | register extends' next => exact ⟨next, sound.register extends'⟩
  | command command leaves =>
    exact ⟨reached, (applyCommand_meets reached.partitioned sound command).leaves leaves
      (fun _ _ post => post.2.sound) fun _ _ post => post.2.2⟩
  | tick answers leaves => exact ⟨reached, (tick_leaves sound answers leaves).sound⟩
  | subscribe device observer leaves =>
    obtain ⟨subscriptions, rfl⟩ := subscribeObserver_leaves leaves
    exact ⟨reached, sound.subscriptions subscriptions⟩
  | unsubscribe subscription leaves =>
    obtain ⟨subscriptions, rfl⟩ := unsubscribe_leaves leaves
    exact ⟨reached, sound.subscriptions subscriptions⟩

theorem WorldReached.sound (h : WorldReached registry self) : registry.Reached ∧ Sound registry self := by
  obtain ⟨start, reached, run⟩ := h
  suffices ∀ state, ReflTransGen WorldStep (start, ({} : Stores F)) state →
      state.1.Reached ∧ Sound state.1 state.2 from this _ run
  intro state run
  induction run with
  | refl => exact ⟨reached, .empty start⟩
  | tail _ step ih => exact step.sound ih.1 ih.2

/-! ### Commands -/

/-- A command goes through, or is refused and changes nothing. -/
def GoesThrough (registry : DefinitionRegistry F) (self : Stores F) (command : WorldCommand F) : Prop :=
  (∃ after, applyCommand registry command self = .ok () after) ∨
    ∃ error after, applyCommand registry command self = .err error after ∧ Unchanged error self after

/-- In every world a command goes through or changes nothing just if it is not excused. -/
theorem command_goes_through (reached : WorldReached registry self) (command : WorldCommand F) :
    GoesThrough registry self command ↔ ¬ Excused registry self command := by
  obtain ⟨known, sound⟩ := reached.sound
  have meets := applyCommand_meets known.partitioned sound command
  cases run : applyCommand registry command self with
  | ok value after =>
    rw [run] at meets
    exact ⟨fun _ => meets.1, fun _ => Or.inl ⟨after, run⟩⟩
  | err error after =>
    rw [run] at meets
    exact ⟨fun _ => meets.1, fun _ => Or.inr ⟨error, after, run, meets.2.1⟩⟩
  | panic =>
    rw [run] at meets
    refine ⟨fun through => ?_, fun fine => absurd meets fine⟩
    rcases through with ⟨_, ran⟩ | ⟨_, _, ran, -⟩
    · exact absurd (run.symm.trans ran) nofun
    · exact absurd (run.symm.trans ran) nofun

/-- Commands that all go through. -/
def applyAll (definitions : DefinitionRegistry F) : List (WorldCommand F) → Stores F → Option (Stores F)
  | [], self => some self
  | command :: rest, self =>
    match applyCommand definitions command self with
    | .ok () after => applyAll definitions rest after
    | _ => none

theorem applyAll_cons {definitions : DefinitionRegistry F} {command : WorldCommand F} {rest : List (WorldCommand F)}
    {self after : Stores F} (run : applyAll definitions (command :: rest) self = some after) :
    ∃ middle, applyCommand definitions command self = .ok () middle ∧ applyAll definitions rest middle = some after := by
  rw [applyAll] at run
  split at run
  · exact ⟨_, ‹_›, run⟩
  · cases run

theorem applyAll_reached {registry : DefinitionRegistry F} {commands : List (WorldCommand F)} {self after : Stores F}
    (reached : WorldReached registry self) (run : applyAll registry commands self = some after) :
    WorldReached registry after := by
  induction commands generalizing self with
  | nil =>
    obtain rfl := Option.some.inj run
    exact reached
  | cons command rest ih =>
    obtain ⟨middle, first, run⟩ := applyAll_cons run
    obtain ⟨start, known, steps⟩ := reached
    exact ih ⟨start, known, steps.tail (.command command (Or.inl ⟨(), first⟩))⟩ run

/-- Two connected wires, and a resistor on the second one. -/
def wiredResistor (first second : WireId) (device : DeviceId) (terminal : TerminalId) : List (WorldCommand Float) :=
  [.addWire first, .addWire second, .connectWires first second,
    .addDevice device PrimitiveElementKind.resistance.definitionId, .attachTerminal second device terminal]

set_option maxRecDepth 8000 in
/-- Where a resistor is on a wire, the wire can be removed, but not another device. -/
theorem command_goes_through_resistor : ∃ stores : Stores Float, WorldReached .new stores ∧
    (GoesThrough .new stores (.removeWire (.ofIndex 1 (by decide))) ∧
      ¬ Excused .new stores (.removeWire (.ofIndex 1 (by decide)))) ∧
    ¬ GoesThrough .new stores (.removeDevice (.ofIndex 1 (by decide))) := by
  have run : ((applyAll .new (wiredResistor (.ofIndex 0 (by decide)) (.ofIndex 1 (by decide)) (.ofIndex 0 (by decide))
      ⟨0, by decide⟩) {}).any fun stores =>
        (applyCommand .new (.removeWire (.ofIndex 1 (by decide))) stores).returned.isSome &&
          (stores.network.record (.ofIndex 1 (by decide))).isNone) = true := by
    decide +kernel
  obtain ⟨stores, steps, run⟩ := (Option.any_eq_true _ _).mp run
  obtain ⟨removes, absent⟩ := Bool.and_eq_true_iff.mp run
  obtain ⟨⟨_, after⟩, returned⟩ := Option.isSome_iff_exists.mp removes
  have reached : WorldReached .new stores := applyAll_reached ⟨.new, .new, .refl⟩ steps
  have through : GoesThrough .new stores (.removeWire (.ofIndex 1 (by decide))) :=
    Or.inl ⟨after, Outcome.of_returned returned⟩
  refine ⟨stores, reached, ⟨through, (command_goes_through reached _).mp through⟩, fun removal => ?_⟩
  exact (command_goes_through reached _).mp removal (Or.inl (Option.isNone_iff_eq_none.mp absent))

/-- Not every command goes through in every world. -/
theorem remove_absent_device_panics : ¬ ∀ (registry : DefinitionRegistry Float) (self : Stores Float),
    WorldReached registry self → ∀ command, GoesThrough registry self command := by
  intro all
  have panics : applyCommand (.new : DefinitionRegistry Float) (.removeDevice (.ofIndex 0 (by decide))) {} = .panic :=
    rfl
  rcases all .new {} ⟨.new, .new, .refl⟩ (.removeDevice (.ofIndex 0 (by decide))) with ⟨_, run⟩ | ⟨_, _, run, -⟩
  · exact absurd (panics.symm.trans run) nofun
  · exact absurd (panics.symm.trans run) nofun

/-! ### Rows -/

/-- Chunk by chunk, the states and the islands of devices lie beside the devices. -/
structure RowsAligned (registry : DefinitionRegistry F) (stores : Stores F) : Prop where
  states : stores.physicalState.chunks.map (fun chunk => (chunk.stateCount, chunk.rowCount)) =
    stores.network.deviceArena.heads.map fun head => (PhysicalStateStore.stateCountOf registry head.1, head.2)
  islands : stores.derivedTopology.deviceChunks.map
      (fun chunk => (SidecarChunk.stride chunk, SidecarChunk.rowCount chunk)) =
    stores.network.deviceArena.heads.map fun head => (DerivedTopology.partitionCountOf registry head.1, head.2)

/-- Read at its device's row, a component's island is the one that lists it. -/
def IslandsInPlace (registry : DefinitionRegistry F) (stores : Stores F) : Prop :=
  ∀ c, DerivedTopology.IsComponent registry stores.network c → ∃ id island,
    stores.derivedTopology.componentIsland stores.network c = some id ∧
      stores.derivedTopology.islands.get id = some island ∧ c ∈ island.components ∧
      ∀ id' island', stores.derivedTopology.islands.get id' = some island' → c ∈ island'.components → id' = id

omit [F64 F] in
theorem Sound.rowsAligned (h : Sound registry self) : RowsAligned registry self :=
  ⟨h.states.heads, h.maintained.islands.beside.aligned.heads⟩

omit [F64 F] in
theorem Sound.islandsInPlace (h : Sound registry self) : IslandsInPlace registry self := by
  intro c component
  have defined := h.maintained.defined
  obtain ⟨id, island, held, member⟩ := (defined.components c).mp component
  have on := (defined.oneIsland c id island held).mp member
  refine ⟨id, island, (defined.sidecar c component).trans on, held, member, ?_⟩
  intro id' island' held' member'
  exact Option.some.inj (((defined.oneIsland c id' island' held').mp member').symm.trans on)

/-- In every world the rows lie beside the devices, and whatever a command or a tick moves, a
device that stays keeps its states and its islands, and a new one has none of its own yet. -/
theorem devices_keep_their_rows (reached : WorldReached registry self) :
    RowsAligned registry self ∧ IslandsInPlace registry self ∧
      (∀ command after, (applyCommand registry command self).Leaves after →
        (∀ device, (self.network.record device).isSome = true → (after.network.record device).isSome = true →
          after.statesOf device = self.statesOf device) ∧
        ∀ device, self.network.record device = none → (after.network.record device).isSome = true →
          ∃ row, after.statesOf device = some row ∧ row.initialized = false ∧ ∀ v ∈ row.values, v = F64.zero) ∧
      ∀ answers after, (tick answers self).Leaves after →
        after.network = self.network ∧
          (∀ c, after.derivedTopology.componentIsland after.network c =
            self.derivedTopology.componentIsland self.network c) ∧
          ∀ device, (∀ output ∈ answers.outputs,
            self.network.deviceArena.locAt device.index ≠ some output.address.location.loc) →
            after.statesOf device = self.statesOf device := by
  obtain ⟨known, sound⟩ := reached.sound
  refine ⟨sound.rowsAligned, sound.islandsInPlace, fun command after left => ?_, fun answers after left => ?_⟩
  · have meets := applyCommand_meets known.partitioned sound command
    rcases left with ⟨value, run⟩ | ⟨error, run⟩
    · rw [run] at meets
      exact ⟨meets.2.kept, meets.2.fresh⟩
    · rw [run] at meets
      rcases meets.2.1 with rfl | ⟨-, n, rfl⟩
      · refine ⟨fun _ _ _ => rfl, fun device free live => ?_⟩
        rw [free] at live
        exact absurd live nofun
      · refine ⟨fun _ _ _ => rfl, fun device free live => ?_⟩
        have live : (self.network.record device).isSome = true := live
        rw [free] at live
        exact absurd live nofun
  · have ticked := tick_leaves sound answers left
    refine ⟨ticked.network, fun c => ?_, ticked.kept⟩
    rw [ticked.network]
    rcases ticked.topology with same | cleared
    · rw [same]
    · rw [cleared]
      rfl

set_option maxRecDepth 8000 in
/-- When the first of two capacitors goes, the row of the second one moves and its states with it. -/
theorem devices_keep_their_rows_capacitor : ∃ self after : Stores Float, WorldReached .new self ∧
    applyCommand .new (.removeDevice (.ofIndex 0 (by decide))) self = .ok () after ∧
    self.network.deviceArena.locAt 1 = some (0, 1) ∧ after.network.deviceArena.locAt 1 = some (0, 0) ∧
    after.statesOf (.ofIndex 1 (by decide)) = self.statesOf (.ofIndex 1 (by decide)) := by
  have run : ((applyAll .new [.addDevice (.ofIndex 0 (by decide)) PrimitiveElementKind.capacitor.definitionId,
      .addDevice (.ofIndex 1 (by decide)) PrimitiveElementKind.capacitor.definitionId] ({} : Stores Float)).any fun self =>
        decide (self.network.deviceArena.locAt 1 = some (0, 1)) &&
          (self.network.record (.ofIndex 1 (by decide))).isSome &&
          (applyCommand .new (.removeDevice (.ofIndex 0 (by decide))) self).returned.any fun removed =>
            decide (removed.2.network.deviceArena.locAt 1 = some (0, 0)) &&
              (removed.2.network.record (.ofIndex 1 (by decide))).isSome) = true := by
    decide +kernel
  obtain ⟨self, steps, run⟩ := (Option.any_eq_true _ _).mp run
  obtain ⟨placed, run⟩ := Bool.and_eq_true_iff.mp run
  obtain ⟨before, resident⟩ := Bool.and_eq_true_iff.mp placed
  obtain ⟨⟨_, after⟩, removes, run⟩ := (Option.any_eq_true _ _).mp run
  obtain ⟨moved, resident'⟩ := Bool.and_eq_true_iff.mp run
  have removes := Outcome.of_returned removes
  have reached : WorldReached .new self := applyAll_reached ⟨.new, .new, .refl⟩ steps
  exact ⟨self, after, reached, removes, of_decide_eq_true before, of_decide_eq_true moved,
    ((devices_keep_their_rows reached).2.2.1 _ after (Or.inl ⟨(), removes⟩)).1 _ resident resident'⟩

end Stores

end Hynergy
