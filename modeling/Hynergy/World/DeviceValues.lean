import Hynergy.Model.ParameterRelations
import Hynergy.World.Residents
import Hynergy.World.WorldRun

/-!
# Values of devices

A command sets one parameter at a time, against that parameter's constraints. So the values of every
primitive inside a device with all of its parameters assigned are accepted one by one; the relation
between two of them holds where each command that completes a device gives it to the loose ones.
-/

namespace Hynergy

open Relation

variable {F : Type}

/-! ### What commands do with parameters -/

namespace Network

variable {self next : Network F}

/-- The definition of a device and its parameters as they are stored. -/
def settings (self : Network F) (device : DeviceId) : Option (DefinitionId × List F) :=
  (self.record device).map fun row => (row.definitionId, row.parameters)

theorem SameDevices.settings (h : SameDevices self next) (device : DeviceId) :
    next.settings device = self.settings device := by
  have same := congrArg (Option.map fun b : DeviceId × DefinitionId × List F × Nat => (b.2.1, b.2.2.1)) (h.rows device)
  rwa [Option.map_map, Option.map_map] at same

theorem settings_of_record {registry : DefinitionRegistry F} (h : Consistent registry self) {device : DeviceId}
    {settings : DefinitionId × List F} (read : self.settings device = some settings) :
    ∃ definition, registry.get settings.1 = some definition ∧ settings.2.length = definition.parameters.length := by
  obtain ⟨row, found, rfl⟩ := Option.map_eq_some_iff.mp read
  obtain ⟨definition, known, -, -, length⟩ := definition_of_record h.toStored found
  exact ⟨definition, known, length⟩

end Network

variable [F64 F]

namespace WorldCommand

/-- The device whose parameters the command sets or starts with. -/
def settled : WorldCommand F → Option DeviceId
  | .addDevice device _ | .setDeviceParameter device _ _ => some device
  | _ => none

/-- The settings of a device after the command. -/
def settingsAfter (registry : DefinitionRegistry F) (before : Network F) (command : WorldCommand F)
    (device : DeviceId) : Option (DefinitionId × List F) :=
  match command with
  | .addDevice other id =>
    if device = other then
      (registry.get id).map fun definition => (id, List.replicate definition.parameters.length unassignedParameter)
    else before.settings device
  | .removeDevice other => if device = other then none else before.settings device
  | .setDeviceParameter other parameter value =>
    if device = other then
      (before.settings device).map fun settings => (settings.1, settings.2.set parameter.index value)
    else before.settings device
  | _ => before.settings device

theorem settingsAfter_cases {registry : DefinitionRegistry F} {before : Network F} {command : WorldCommand F}
    {device : DeviceId} {settings : DefinitionId × List F}
    (read : command.settingsAfter registry before device = some settings) :
    before.settings device = some settings ∨ command.settled = some device := by
  cases command with
  | addDevice other id =>
    by_cases same : device = other
    · exact Or.inr (congrArg some same.symm)
    · rw [settingsAfter, if_neg same] at read
      exact Or.inl read
  | removeDevice other =>
    by_cases same : device = other
    · rw [settingsAfter, if_pos same] at read
      cases read
    · rw [settingsAfter, if_neg same] at read
      exact Or.inl read
  | setDeviceParameter other parameter value =>
    by_cases same : device = other
    · exact Or.inr (congrArg some same.symm)
    · rw [settingsAfter, if_neg same] at read
      exact Or.inl read
  | addWire | removeWire | connectWires | disconnectWires | attachTerminal | detachTerminal => exact Or.inl read

/-- A value that the command sets is one its parameter accepts. -/
def Accepts (registry : DefinitionRegistry F) (before : Network F) (command : WorldCommand F) : Prop :=
  ∀ device parameter value, command = .setDeviceParameter device parameter value →
    ∃ settings definition constraints, before.settings device = some settings ∧
      registry.get settings.1 = some definition ∧ definition.parameters[parameter.index]? = some constraints ∧
      constraints.validate value = .ok ()

end WorldCommand

namespace Network

variable {self next : Network F} {registry : DefinitionRegistry F}

/-- What a command that goes through on the network does with parameters. -/
theorem onNetwork_settings (h : Consistent registry self) {command : WorldCommand F}
    (run : command.onNetwork registry self = .ok () next) :
    (∀ device, next.settings device = command.settingsAfter registry self device) ∧ command.Accepts registry self := by
  cases command with
  | addWire wire =>
    refine ⟨fun device => ?_, fun _ _ _ wrong => by cases wrong⟩
    rcases addWire_spec h wire with ⟨_, ran, -, added⟩ | ⟨e, failed⟩
    · obtain ⟨-, rfl⟩ := Outcome.ok.inj (ran.symm.trans run)
      exact (SameDevices.of_arena added.arena).settings device
    · cases failed.symm.trans run
  | removeWire wire =>
    refine ⟨fun device => ?_, fun _ _ _ wrong => by cases wrong⟩
    rcases removeWire_spec h wire with ⟨_, ran, -, removed⟩ | ⟨⟨e, failed⟩, -⟩
    · obtain ⟨-, rfl⟩ := Outcome.ok.inj (ran.symm.trans run)
      exact removed.devices.settings device
    · cases failed.symm.trans run
  | connectWires wireA wireB =>
    refine ⟨fun device => ?_, fun _ _ _ wrong => by cases wrong⟩
    rcases connectWires_spec h wireA wireB with ⟨_, ran, -, -, -, -, relinked⟩ | ⟨e, failed⟩
    · obtain ⟨-, rfl⟩ := Outcome.ok.inj (ran.symm.trans run)
      exact relinked.same.devices.settings device
    · cases failed.symm.trans run
  | disconnectWires wireA wireB =>
    refine ⟨fun device => ?_, fun _ _ _ wrong => by cases wrong⟩
    rcases disconnectWires_spec h wireA wireB with ⟨_, ran, -, -, relinked⟩ | ⟨e, failed⟩
    · obtain ⟨-, rfl⟩ := Outcome.ok.inj (ran.symm.trans run)
      exact relinked.same.devices.settings device
    · cases failed.symm.trans run
  | attachTerminal wire device terminal =>
    refine ⟨fun device => ?_, fun _ _ _ wrong => by cases wrong⟩
    rcases attachTerminal_spec h wire _ terminal with ⟨_, _, ran, -, -, -, relinked⟩ | ⟨e, failed⟩
    · obtain ⟨-, rfl⟩ := Outcome.ok.inj (ran.symm.trans run)
      exact relinked.same.devices.settings device
    · cases failed.symm.trans run
  | detachTerminal wire device terminal =>
    refine ⟨fun device => ?_, fun _ _ _ wrong => by cases wrong⟩
    rcases detachTerminal_spec h wire _ terminal with ⟨_, _, ran, -, relinked⟩ | ⟨e, failed⟩
    · obtain ⟨-, rfl⟩ := Outcome.ok.inj (ran.symm.trans run)
      exact relinked.same.devices.settings device
    · cases failed.symm.trans run
  | addDevice device definitionId =>
    refine ⟨fun other => ?_, fun _ _ _ wrong => by cases wrong⟩
    rcases prepareAddDevice_spec h device definitionId with
      ⟨prepared, definition, active, ran, rfl, rfl, consistent, ready⟩ | ⟨e, failed⟩ | ⟨n, failed, -⟩
    · obtain ⟨result, after, commit, -, -, -, added⟩ := commitAddDevice_spec consistent ready
      have inserts : Network.addDevice registry prepared.device prepared.definitionId self = .ok result after :=
        (Call.bind_ok ran).trans commit
      have whole : (WorldCommand.addDevice prepared.device prepared.definitionId).onNetwork registry self =
        .ok () after := Call.bind_ok inserts
      obtain ⟨-, rfl⟩ := Outcome.ok.inj (whole.symm.trans run)
      rw [WorldCommand.settingsAfter]
      by_cases same : other = prepared.device
      · subst same
        rw [if_pos rfl, ready.known, settings, record, added.inserted.added]
        rfl
      · rw [if_neg same, settings, record, added.inserted.kept other same]
        rfl
    · have whole : (WorldCommand.addDevice device definitionId).onNetwork registry self = .err e self :=
        Call.bind_err (Call.bind_err failed)
      cases whole.symm.trans run
    · have whole : (WorldCommand.addDevice device definitionId).onNetwork registry self =
        .err .deviceArenaExhausted _ := Call.bind_err (Call.bind_err failed)
      cases whole.symm.trans run
  | removeDevice device =>
    refine ⟨fun other => ?_, fun _ _ _ wrong => by cases wrong⟩
    rcases removeDevice_spec h device with ⟨_, _, _, _, after, ran, -, removed⟩ | ⟨⟨e, failed⟩, -⟩
    · have whole : (WorldCommand.removeDevice device).onNetwork registry self = .ok () after := Call.bind_ok ran
      obtain ⟨-, rfl⟩ := Outcome.ok.inj (whole.symm.trans run)
      rw [WorldCommand.settingsAfter]
      by_cases same : other = device
      · subst same
        rw [if_pos rfl, settings, record, removed.removed.removed]
        rfl
      · rw [if_neg same, settings, record, removed.removed.kept other same]
        rfl
    · have whole : (WorldCommand.removeDevice device).onNetwork registry self = .err e self := Call.bind_err failed
      cases whole.symm.trans run
  | setDeviceParameter device parameter value =>
    rcases setDeviceParameter_spec h device parameter value with ⟨_, _, ran, -, set⟩ | ⟨e, failed⟩
    · obtain ⟨-, rfl⟩ := Outcome.ok.inj (ran.symm.trans run)
      have read : self.settings device = some _ := congrArg (Option.map _) set.found
      refine ⟨fun other => ?_, fun device' parameter' value' same => ?_⟩
      · rw [WorldCommand.settingsAfter]
        by_cases same : other = device
        · subst same
          rw [if_pos rfl, read, settings, record, set.edited.written]
          rfl
        · rw [if_neg same, settings, record, set.edited.kept other same]
          rfl
      · obtain ⟨rfl, rfl, rfl⟩ := WorldCommand.setDeviceParameter.inj same
        obtain ⟨definition, constraints, known, inside, valid⟩ := set.allowed
        exact ⟨_, definition, constraints, read, known, inside, valid⟩
    · cases failed.symm.trans run

/-! ### Values -/

/-- Every value that is not missing is one its parameter accepts. -/
def Valued (registry : DefinitionRegistry F) (self : Network F) : Prop :=
  ∀ device settings definition, self.settings device = some settings → registry.get settings.1 = some definition →
    ∀ (i : Nat) c v, definition.parameters[i]? = some c → settings.2[i]? = some v →
      v = unassignedParameter ∨ c.validate v = .ok ()

/-- Every primitive inside a device, where all of the device's parameters are assigned. -/
def EachPrimitive (registry : DefinitionRegistry F) (self : Network F)
    (holds : PrimitiveElementKind → List F → Prop) : Prop :=
  ∀ device settings definition values, self.settings device = some settings →
    registry.get settings.1 = some definition → settings.2.mapM decodeParameter = some values →
    ∀ kind leaf, Instance registry definition values kind leaf → holds kind leaf

/-- The effective parameters of every primitive in every such device validate. -/
def Validated (registry : DefinitionRegistry F) (self : Network F) : Prop :=
  self.EachPrimitive registry fun kind leaf => kind.validateParameters leaf = some (.ok ())

end Network

/-- Where settings leave nothing unassigned, the relation holds for every loose primitive. -/
def Tight (registry : DefinitionRegistry F) (settings : DefinitionId × List F) : Prop :=
  ∀ definition values, registry.get settings.1 = some definition → settings.2.mapM decodeParameter = some values →
    ∀ kind leaf, Loose registry definition values kind leaf → kind.Related leaf

/-- The values that the command leaves its device with keep the relations of the loose primitives. -/
def WorldCommand.Careful (registry : DefinitionRegistry F) (before : Network F) (command : WorldCommand F) : Prop :=
  ∀ device settings, command.settled = some device →
    command.settingsAfter registry before device = some settings → Tight registry settings

/-- Parameters that are all assigned are read as they are stored. -/
theorem decoded {parameters values : List F} (read : parameters.mapM decodeParameter = some values) :
    values = parameters ∧ ∀ v ∈ parameters, F64.beq v unassignedParameter = false := by
  induction parameters generalizing values with
  | nil =>
    obtain rfl := Option.some.inj read
    exact ⟨rfl, fun v member => absurd member List.not_mem_nil⟩
  | cons parameter parameters ih =>
    rw [List.mapM_cons] at read
    obtain ⟨value, first, read⟩ := Option.bind_eq_some_iff.mp read
    obtain ⟨rest, others, read⟩ := Option.bind_eq_some_iff.mp read
    obtain rfl := Option.some.inj read
    obtain ⟨rfl, assigned⟩ := ih others
    unfold decodeParameter at first
    split at first
    · cases first
    · rename_i here
      obtain rfl := Option.some.inj first
      refine ⟨rfl, fun v member => ?_⟩
      rcases List.mem_cons.mp member with rfl | later
      · simpa using here
      · exact assigned v later

namespace Network

variable {self next : Network F} {registry : DefinitionRegistry F}

theorem Valued.accepted (h : Valued registry self) (consistent : Consistent registry self)
    (infinite : F64.beq (F64.infinity : F) F64.infinity = true) {device : DeviceId}
    {settings : DefinitionId × List F} {definition : DeviceDefinition F} {values : List F}
    (read : self.settings device = some settings) (known : registry.get settings.1 = some definition)
    (assigned : settings.2.mapM decodeParameter = some values) : AllAccepted definition.parameters values := by
  obtain ⟨rfl, here⟩ := decoded assigned
  obtain ⟨definition', known', length⟩ := settings_of_record consistent read
  obtain rfl := Option.some.inj (known.symm.trans known')
  refine ⟨length, fun i c v readC readV => ?_⟩
  rcases h device settings definition read known i c v readC readV with rfl | valid
  · have wrong := here _ (List.mem_of_getElem? readV)
    rw [unassignedParameter, infinite] at wrong
    cases wrong
  · exact valid

/-- The values of every primitive are accepted one by one, and the loose ones decide about relations. -/
theorem Valued.validated (h : Valued registry self) (consistent : Consistent registry self)
    (ordered : F64.Ordered F) (infinite : F64.beq (F64.infinity : F) F64.infinity = true) (reached : registry.Reached) :
    (self.EachPrimitive registry fun kind leaf => AllAccepted kind.parameterConstraints leaf) ∧
      (self.Validated registry ↔ ∀ device settings, self.settings device = some settings → Tight registry settings) := by
  have each : self.EachPrimitive registry fun kind leaf => AllAccepted kind.parameterConstraints leaf :=
    fun device settings definition values read known assigned kind leaf inside =>
      inside.accepted ordered reached (reached.checked _ _ known) (h.accepted consistent infinite read known assigned)
  refine ⟨each, fun validated device settings read definition values known assigned kind leaf loose => ?_,
    fun tight device settings definition values read known assigned kind leaf inside => ?_⟩
  · have valid := validated device settings definition values read known assigned kind leaf loose.instance
    exact (PrimitiveElementKind.validateParameters_ok.mp valid).2
  · refine PrimitiveElementKind.validateParameters_ok.mpr
      ⟨each device settings definition values read known assigned kind leaf inside, ?_⟩
    rcases inside.loose_or_related reached (reached.checked _ _ known) with loose | related
    · exact tight device settings read definition values known assigned kind leaf loose
    · exact related

theorem Valued.command (h : Valued registry self) {command : WorldCommand F}
    (settings : ∀ device, next.settings device = command.settingsAfter registry self device)
    (accepts : command.Accepts registry self) : Valued registry next := by
  intro device after definition read known i c v readC readV
  rw [settings] at read
  rcases WorldCommand.settingsAfter_cases read with earlier | settles
  · exact h device after definition earlier known i c v readC readV
  cases command with
  | addDevice other id =>
    obtain rfl := Option.some.inj settles
    rw [WorldCommand.settingsAfter, if_pos rfl] at read
    obtain ⟨definition', -, rfl⟩ := Option.map_eq_some_iff.mp read
    exact Or.inl (List.eq_of_mem_replicate (List.mem_of_getElem? readV))
  | setDeviceParameter other parameter value =>
    obtain rfl := Option.some.inj settles
    rw [WorldCommand.settingsAfter, if_pos rfl] at read
    obtain ⟨before, readBefore, rfl⟩ := Option.map_eq_some_iff.mp read
    obtain ⟨before', definition', constraints, same, known', inside, valid⟩ := accepts _ _ _ rfl
    obtain rfl := Option.some.inj (readBefore.symm.trans same)
    obtain rfl := Option.some.inj (known.symm.trans known')
    by_cases here : parameter.index = i
    · subst here
      obtain rfl := Option.some.inj (readC.symm.trans inside)
      rw [List.getElem?_set_self (by simpa using (List.getElem?_eq_some_iff.mp readV).1)] at readV
      obtain rfl := Option.some.inj readV
      exact Or.inr valid
    · rw [List.getElem?_set_ne here] at readV
      exact h _ before definition readBefore known i c v readC readV
  | addWire | removeWire | connectWires | disconnectWires | attachTerminal | detachTerminal | removeDevice => cases settles

end Network

/-! ### Worlds -/

namespace Stores

variable {registry : DefinitionRegistry F} {self after : Stores F}

/-- A command that goes through settles as it says; one that fails changes no parameter. -/
theorem applyCommand_settings (partitioned : registry.Partitioned) (sound : Sound registry self)
    {command : WorldCommand F} (left : (applyCommand registry command self).Leaves after) :
    ((∀ device, after.network.settings device = command.settingsAfter registry self.network device) ∧
        command.Accepts registry self.network) ∨
      ∀ device, after.network.settings device = self.network.settings device := by
  rcases left with ⟨_, run⟩ | ⟨error, run⟩
  · have ran := @applyCommand_network _ _ self registry command
    rw [run] at ran
    exact Or.inl (Network.onNetwork_settings sound.consistent ran)
  · have meets := applyCommand_meets partitioned sound command
    rw [run] at meets
    rcases meets.2.1 with rfl | ⟨-, n, rfl⟩
    · exact Or.inr fun _ => rfl
    · exact Or.inr fun _ => rfl

theorem settings_of_ok (sound : Sound registry self) {command : WorldCommand F}
    (run : applyCommand registry command self = .ok () after) (device : DeviceId) :
    after.network.settings device = command.settingsAfter registry self.network device := by
  have ran := @applyCommand_network _ _ self registry command
  rw [run] at ran
  exact (Network.onNetwork_settings sound.consistent ran).1 device

/-- Only commands change the network. -/
theorem WorldStep.command_or_quiet {before next : DefinitionRegistry F × Stores F} (step : WorldStep before next)
    (sound : Sound before.1 before.2) :
    (∃ command, next.1 = before.1 ∧ (applyCommand before.1 command before.2).Leaves next.2) ∨
      next.1.Extends before.1 ∧ next.2.network = before.2.network := by
  cases step with
  | register extends' _ => exact Or.inr ⟨extends', rfl⟩
  | command command leaves => exact Or.inl ⟨command, rfl, leaves⟩
  | tick answers leaves => exact Or.inr ⟨.refl _, (tick_leaves sound answers leaves).network⟩
  | subscribe device observer leaves =>
    obtain ⟨subscriptions, rfl⟩ := subscribeObserver_leaves leaves
    exact Or.inr ⟨.refl _, rfl⟩
  | unsubscribe subscription leaves =>
    obtain ⟨subscriptions, rfl⟩ := unsubscribe_leaves leaves
    exact Or.inr ⟨.refl _, rfl⟩

omit [F64 F] in
/-- A definition that a device has was registered before. -/
theorem Sound.known {next : DefinitionRegistry F} (sound : Sound registry self) (grown : next.Extends registry)
    {device : DeviceId} {settings : DefinitionId × List F} {definition : DeviceDefinition F}
    (read : self.network.settings device = some settings) (known : next.get settings.1 = some definition) :
    registry.get settings.1 = some definition := by
  obtain ⟨earlier, known', -⟩ := Network.settings_of_record sound.consistent read
  rw [known', ← known]
  exact (grown _ _ known').symm

theorem WorldStep.valued {before next : DefinitionRegistry F × Stores F} (step : WorldStep before next)
    (reached : before.1.Reached) (sound : Sound before.1 before.2) (valued : before.2.network.Valued before.1) :
    next.2.network.Valued next.1 := by
  rcases step.command_or_quiet sound with ⟨command, registry, left⟩ | ⟨grown, same⟩
  · rw [registry]
    rcases applyCommand_settings reached.partitioned sound left with ⟨settings, accepts⟩ | kept
    · exact valued.command settings accepts
    · exact fun device settings definition read => valued device settings definition (kept device ▸ read)
  · rw [same]
    exact fun device settings definition read known =>
      valued device settings definition read (sound.known grown read known)

theorem WorldReached.valued (h : WorldReached registry self) : self.network.Valued registry := by
  obtain ⟨start, reached, run⟩ := h
  suffices ∀ state, ReflTransGen WorldStep (start, ({} : Stores F)) state → state.2.network.Valued state.1 from this _ run
  intro state run
  induction run with
  | refl => exact fun device settings definition read => by cases read
  | tail before step ih =>
    obtain ⟨known, sound⟩ := WorldReached.sound ⟨start, reached, before⟩
    exact step.valued known sound ih

/-- A step of a world whose commands are careful. -/
inductive CarefulStep : DefinitionRegistry F × Stores F → DefinitionRegistry F × Stores F → Prop
  | command {registry : DefinitionRegistry F} {stores after : Stores F} (command : WorldCommand F)
      (careful : command.Careful registry stores.network)
      (leaves : (applyCommand registry command stores).Leaves after) : CarefulStep (registry, stores) (registry, after)
  | quiet {before next : DefinitionRegistry F × Stores F} (step : WorldStep before next)
      (same : next.2.network = before.2.network) : CarefulStep before next

def CarefullyReached (registry : DefinitionRegistry F) (self : Stores F) : Prop :=
  ∃ start : DefinitionRegistry F, start.Reached ∧ ReflTransGen CarefulStep (start, {}) (registry, self)

theorem CarefulStep.step {before next : DefinitionRegistry F × Stores F} (step : CarefulStep before next) :
    WorldStep before next := by
  cases step with
  | command command _ leaves => exact .command command leaves
  | quiet step _ => exact step

theorem CarefullyReached.reached (h : CarefullyReached registry self) : WorldReached registry self := by
  obtain ⟨start, reached, run⟩ := h
  exact ⟨start, reached, ReflTransGen.mono (fun _ _ => CarefulStep.step) _ _ run⟩

theorem CarefulStep.tight {before next : DefinitionRegistry F × Stores F} (step : CarefulStep before next)
    (reached : before.1.Reached) (sound : Sound before.1 before.2)
    (tight : ∀ device settings, before.2.network.settings device = some settings → Tight before.1 settings) :
    ∀ device settings, next.2.network.settings device = some settings → Tight next.1 settings := by
  intro device settings read
  have grown : ∀ {next : DefinitionRegistry F}, next.Extends before.1 →
      before.2.network.settings device = some settings → Tight next settings := by
    intro next grown read definition values known assigned kind leaf loose
    have earlier := sound.known grown read known
    exact tight device settings read definition values earlier assigned kind leaf
      (loose.restrict reached grown (reached.checked _ _ earlier))
  cases step with
  | command command careful leaves =>
    rcases applyCommand_settings reached.partitioned sound leaves with ⟨after, -⟩ | kept
    · rw [after] at read
      rcases WorldCommand.settingsAfter_cases read with earlier | settles
      · exact tight device settings earlier
      · exact careful device settings settles read
    · exact tight device settings (kept device ▸ read)
  | quiet step same =>
    rw [same] at read
    rcases step.command_or_quiet sound with ⟨command, registry, -⟩ | ⟨extends', -⟩
    · exact grown (registry ▸ .refl _) read
    · exact grown extends' read

theorem CarefullyReached.tight (h : CarefullyReached registry self) :
    ∀ device settings, self.network.settings device = some settings → Tight registry settings := by
  obtain ⟨start, reached, run⟩ := h
  suffices ∀ state, ReflTransGen CarefulStep (start, ({} : Stores F)) state →
      ∀ device settings, state.2.network.settings device = some settings → Tight state.1 settings from this _ run
  intro state run
  induction run with
  | refl => exact fun device settings read => by cases read
  | tail before step ih =>
    obtain ⟨known, sound⟩ := WorldReached.sound (CarefullyReached.reached ⟨start, reached, before⟩)
    exact step.tight known sound ih

/-- In every world the values of every primitive of a device are accepted one by one, and in a world of
careful commands they validate. A command that is not careful and goes through leaves values that do not. -/
theorem primitives_validate (ordered : F64.Ordered F) (infinite : F64.beq (F64.infinity : F) F64.infinity = true) :
    (∀ registry (self : Stores F), WorldReached registry self →
      self.network.EachPrimitive registry fun kind leaf => AllAccepted kind.parameterConstraints leaf) ∧
    (∀ registry (self : Stores F), CarefullyReached registry self → self.network.Validated registry) ∧
    ∀ registry (self : Stores F), WorldReached registry self → ∀ command after,
      applyCommand registry command self = .ok () after → after.network.Validated registry →
      command.Careful registry self.network := by
  refine ⟨fun registry self world => ?_, fun registry self careful => ?_, fun registry self world command after run validated => ?_⟩
  · obtain ⟨known, sound⟩ := world.sound
    exact (world.valued.validated sound.consistent ordered infinite known).1
  · obtain ⟨known, sound⟩ := careful.reached.sound
    exact (careful.reached.valued.validated sound.consistent ordered infinite known).2.mpr careful.tight
  · intro device settings settles read
    obtain ⟨known, sound⟩ := world.sound
    have step : WorldReached registry after := by
      obtain ⟨start, reached, steps⟩ := world
      exact ⟨start, reached, steps.tail (.command command (Or.inl ⟨(), run⟩))⟩
    obtain ⟨-, sound'⟩ := step.sound
    rw [← settings_of_ok sound run] at read
    exact (step.valued.validated sound'.consistent ordered infinite known).2.mp validated device settings read

end Stores

/-! ### A diode -/

/-- A fraction, or what is above all of them. -/
structure ToppedRat where
  value : Option ℚ
  deriving DecidableEq

namespace ToppedRat

def lift (operation : ℚ → ℚ → ℚ) (a b : ToppedRat) : ToppedRat :=
  match a.value, b.value with
  | some a, some b => ⟨some (operation a b)⟩
  | _, _ => ⟨none⟩

def less (a b : ToppedRat) : Bool :=
  match a.value, b.value with
  | some a, some b => decide (a < b)
  | some _, none => true
  | none, _ => false

instance : F64 ToppedRat where
  zero := ⟨some 0⟩
  half := ⟨some (1 / 2)⟩
  one := ⟨some 1⟩
  infinity := ⟨none⟩
  add := lift (· + ·)
  sub := lift (· - ·)
  mul := lift (· * ·)
  div a b := if b.value = some 0 then ⟨none⟩ else lift (· / ·) a b
  neg a := lift (· - ·) ⟨some 0⟩ a
  beq a b := decide (a = b)
  lt := less
  le a b := less a b || decide (a = b)
  isFinite a := a.value.isSome
  toBits a := F64.toBits (⟨a.value⟩ : CappedRat)

theorem less_trans {a b c : ToppedRat} (h : less a b = true) (h' : less b c = true) : less a c = true := by
  obtain ⟨_ | a⟩ := a
  · cases h
  obtain ⟨_ | b⟩ := b
  · cases h'
  obtain ⟨_ | c⟩ := c
  · rfl
  · simp only [less, decide_eq_true_eq] at h h' ⊢
    exact h.trans h'

theorem less_irrefl (a : ToppedRat) : less a a = false := by
  obtain ⟨_ | a⟩ := a
  · rfl
  · simp [less]

theorem ordered : F64.Ordered ToppedRat where
  lt_trans := less_trans
  lt_of_lt_of_beq h h' := of_decide_eq_true h' ▸ h
  lt_of_beq_of_lt h h' := of_decide_eq_true h ▸ h'
  beq_symm h := decide_eq_true (of_decide_eq_true h).symm
  beq_trans h h' := decide_eq_true ((of_decide_eq_true h).trans (of_decide_eq_true h'))
  le_iff := Bool.or_eq_true_iff
  not_beq_of_lt {a b} h h' := by
    obtain rfl : a = b := of_decide_eq_true h'
    exact absurd (h.symm.trans (less_irrefl a)) (by decide)
  reciprocal_zero {a} h := by
    obtain rfl : a = ⟨some 0⟩ := of_decide_eq_true h
    rfl

end ToppedRat

namespace Stores

/-- A diode, with its greater and its lesser conductance set one after the other. -/
def diodeCommands (greater lesser : ToppedRat) : List (WorldCommand ToppedRat) :=
  [.addDevice (.ofIndex 0 (by decide)) PrimitiveElementKind.diode.definitionId,
    .setDeviceParameter (.ofIndex 0 (by decide)) ⟨0, by decide⟩ greater,
    .setDeviceParameter (.ofIndex 0 (by decide)) ⟨1, by decide⟩ lesser]

theorem CarefullyReached.apply {registry : DefinitionRegistry F} {self after : Stores F} {command : WorldCommand F}
    (h : CarefullyReached registry self) (careful : command.Careful registry self.network)
    (run : applyCommand registry command self = .ok () after) :
    CarefullyReached registry after ∧
      ∀ device, after.network.settings device = command.settingsAfter registry self.network device := by
  obtain ⟨start, known, steps⟩ := id h
  exact ⟨⟨start, known, steps.tail (.command command careful (Or.inl ⟨(), run⟩))⟩,
    settings_of_ok h.reached.sound.2 run⟩

/-- Not every diode has the greater conductance above the lesser one: each was set without the other. -/
theorem diode_relation_broken : ¬ ∀ (registry : DefinitionRegistry ToppedRat) (self : Stores ToppedRat),
    WorldReached registry self → self.network.Validated registry := by
  intro all
  have settings : (applyAll .new (diodeCommands ⟨some 1⟩ ⟨some 2⟩) {}).map
      (fun self => self.network.settings (.ofIndex 0 (by decide))) =
    some (some (PrimitiveElementKind.diode.definitionId, [⟨some 1⟩, ⟨some 2⟩])) := by decide +kernel
  obtain ⟨after, ran, settings⟩ := Option.map_eq_some_iff.mp settings
  have reached : WorldReached .new after := applyAll_reached ⟨.new, .new, .refl⟩ ran
  have valid := all .new after reached _ _ PrimitiveElementKind.diode.definition [⟨some 1⟩, ⟨some 2⟩] settings rfl
    (by decide +kernel) .diode _ (.primitive rfl)
  exact absurd valid (by decide +kernel)

/-- Two above one goes. -/
theorem primitives_validate_diode : ∃ after : Stores ToppedRat,
    applyAll .new (diodeCommands ⟨some 2⟩ ⟨some 1⟩) {} = some after ∧ after.network.Validated .new := by
  have runs : (applyAll .new (diodeCommands ⟨some 2⟩ ⟨some 1⟩) {}).isSome = true := by decide +kernel
  obtain ⟨after, ran⟩ := Option.isSome_iff_exists.mp runs
  refine ⟨after, ran, (primitives_validate ToppedRat.ordered (by decide)).2.1 .new after ?_⟩
  obtain ⟨added, run, ran⟩ := applyAll_cons ran
  obtain ⟨greaterSet, run', ran⟩ := applyAll_cons ran
  obtain ⟨lesserSet, run'', ran⟩ := applyAll_cons ran
  obtain rfl := Option.some.inj ran
  have start : CarefullyReached (.new : DefinitionRegistry ToppedRat) {} := ⟨.new, .new, .refl⟩
  -- the first two commands leave a parameter unassigned
  obtain ⟨start, settings⟩ := start.apply (by
    intro device settings settles read definition values known assigned
    obtain rfl := Option.some.inj settles
    obtain rfl : (PrimitiveElementKind.diode.definitionId, [⟨none⟩, ⟨none⟩]) = settings := Option.some.inj read
    cases show (none : Option (List ToppedRat)) = some values from assigned) run
  replace settings : added.network.settings (.ofIndex 0 (by decide)) =
    some (PrimitiveElementKind.diode.definitionId, [⟨none⟩, ⟨none⟩]) := settings _
  obtain ⟨start, settings'⟩ := start.apply (by
    intro device after settles read definition values known assigned
    obtain rfl := Option.some.inj settles
    rw [WorldCommand.settingsAfter, if_pos rfl, settings] at read
    obtain rfl := Option.some.inj read
    cases show (none : Option (List ToppedRat)) = some values from assigned) run'
  replace settings' : greaterSet.network.settings (.ofIndex 0 (by decide)) =
      some (PrimitiveElementKind.diode.definitionId, [⟨some 2⟩, ⟨none⟩]) := by
    rw [settings', WorldCommand.settingsAfter, if_pos rfl, settings]
    rfl
  refine (start.apply ?_ run'').1
  intro device after settles read definition values known assigned kind leaf loose
  obtain rfl := Option.some.inj settles
  rw [WorldCommand.settingsAfter, if_pos rfl, settings'] at read
  obtain rfl := Option.some.inj read
  obtain rfl : PrimitiveElementKind.diode.definition = definition := Option.some.inj known
  obtain rfl : [⟨some 2⟩, ⟨some 1⟩] = values := Option.some.inj assigned
  cases loose with
  | device body =>
    obtain rfl := DeviceBody.primitive.inj body
    intro greater lesser g l relation readG readL
    obtain ⟨rfl, rfl⟩ := Prod.mk.inj (Option.some.inj relation)
    obtain rfl := Option.some.inj readG
    obtain rfl := Option.some.inj readL
    decide +kernel
  | element body => cases body
  | inside body => cases body

end Stores

end Hynergy
