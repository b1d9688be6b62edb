import Hynergy.Network.DeviceOperations

/-!
# Reads

Calls that only read, as the engine uses them: the value, or `none` where it `expect`s one
and there is none.
-/

namespace Hynergy

variable {F : Type}

/-- The value a reading call returns. -/
def Call.value {σ ε α : Type} (call : Call σ ε α) (state : σ) : Option α :=
  match call state with
  | .ok value _ => some value
  | _ => none

theorem Call.value_ok {σ ε α : Type} {call : Call σ ε α} {state after : σ} {value : α}
    (h : call state = .ok value after) : call.value state = some value := by
  rw [Call.value, h]

theorem Call.value_err {σ ε α : Type} {call : Call σ ε α} {state after : σ} {error : ε}
    (h : call state = .err error after) : call.value state = none := by
  rw [Call.value, h]

namespace Network

variable [F64 F]

def deviceDefinitionId (id : DeviceId) : Call (Network F) NetworkModelError DefinitionId := do
  let view ← device id
  pure view.definitionId

def deviceIdsInChunk (self : Network F) (chunkIndex : Nat) : Option (List DeviceId) :=
  self.deviceArena.deviceIdsInChunk chunkIndex

def parameterAtLocation (self : Network F) (location : DeviceLocation) (parameter : ParameterId) :
    Option (Option F) := self.deviceArena.parameterAtLocation location parameter

/-! ### `expect`ed reads -/

def connectionsOf (self : Network F) (wire : WireId) : Option WireSlot :=
  (wireConnections wire).value self

def deviceOf (self : Network F) (id : DeviceId) : Option (DeviceView F) := (device id).value self

def definitionIdOf (self : Network F) (id : DeviceId) : Option DefinitionId :=
  (deviceDefinitionId id).value self

def locationOf (self : Network F) (id : DeviceId) : Option DeviceLocation :=
  (self.deviceLocation id).toOption

variable {registry : DefinitionRegistry F} {self : Network F}

omit [F64 F] in
theorem connectionsOf_eq (wire : WireId) : self.connectionsOf wire = self.wireSlot wire := by
  cases live : self.wireSlot wire with
  | none => exact Call.value_err (wireConnections_of_dead live)
  | some slot => exact Call.value_ok (wireConnections_of_live live)

/-- How a row is seen by its readers. -/
def viewOf (row : DeviceRow F) : DeviceView F :=
  ⟨row.definitionId, row.terminals, row.parameters.map decodeParameter⟩

theorem deviceOf_eq (h : Stored registry self) (id : DeviceId) :
    self.deviceOf id = (self.record id).map viewOf := by
  rcases device_spec h id with ⟨row, found, run⟩ | ⟨missing, run⟩
  · rw [found]
    exact Call.value_ok run
  · rw [missing]
    exact Call.value_err run

theorem definitionIdOf_eq (h : Stored registry self) (id : DeviceId) :
    self.definitionIdOf id = (self.record id).map DeviceRow.definitionId := by
  rcases device_spec h id with ⟨row, found, run⟩ | ⟨missing, run⟩
  · rw [found]
    exact Call.value_ok (Call.bind_ok run)
  · rw [missing]
    exact Call.value_err (Call.bind_err run)

omit [F64 F] in
theorem locationOf_eq (id : DeviceId) :
    self.locationOf id = (self.deviceArena.locAt id.index).map fun loc => ⟨loc.1, loc.2⟩ := by
  unfold locationOf deviceLocation DeviceArena.location
  cases located : self.deviceArena.locAt id.index with
  | none =>
    rw [DeviceArena.residentLocator_eq_none.mpr located]
    rfl
  | some loc =>
    obtain ⟨locator, found, hc, hr⟩ := DeviceArena.residentLocator_of_locAt located
    rw [found]
    simp only [Except.toOption, DeviceLocation.ofLocator, hc, hr, Option.map_some]

omit [F64 F] in
theorem locationOf_some {id : DeviceId} {loc : Lib.Loc}
    (located : self.deviceArena.locAt id.index = some loc) :
    self.locationOf id = some ⟨loc.1, loc.2⟩ := by
  rw [locationOf_eq, located, Option.map_some]

end Network

end Hynergy
