import Hynergy.State.StateChunk

/-!
# The physical state store

One state chunk beside each device chunk. A device's states are found at its model location;
until its row was initialised they read as their initialisers.
-/

namespace Hynergy

open Lib

variable {F : Type}

structure PhysicalStateAddress where
  location : DeviceLocation
  stateIndex : Nat
  deriving DecidableEq

structure DeviceState where
  device : DeviceId
  state : DefinitionStateId
  deriving DecidableEq

inductive DefinitionStateInitializer (F : Type) where
  | literal (value : F)

inductive PhysicalStateError where
  | stateNotInitialized (state : DeviceState)
  deriving DecidableEq

structure PreparedStateInsert (F : Type) where
  location : DeviceLocation
  newChunk : Option (StateChunk F)

structure PhysicalStateStore (F : Type) where
  chunks : List (StateChunk F) := []

namespace PhysicalStateStore

def prepareAddDevice (self : PhysicalStateStore F) (definition : DeviceDefinition F)
    (model : PreparedDeviceInsert F) : Option (PreparedStateInsert F) :=
  let location := model.location
  let chunkIndex := location.chunkIndex
  let row := location.row
  let stateCount := definition.stateCount
  if model.createdChunk then
    if chunkIndex = self.chunks.length ∧ row = 0 then do
      let chunk : StateChunk F := .new stateCount
      chunk.reserveRows 1
      some { location, newChunk := some chunk }
    else none
  else do
    let chunk ← self.chunks[chunkIndex]?
    if chunk.stateCount = stateCount ∧ chunk.rowCount = row then do
      chunk.reserveRows 1
      some { location, newChunk := none }
    else none

def stateNotInitialized (device : DeviceId) (stateIndex : Nat) : Option PhysicalStateError :=
  (Id.ofIndex? stateIndex).map fun state => .stateNotInitialized { device, state }

def commitAddDevice [F64 F] (self : PhysicalStateStore F) (prepared : PreparedStateInsert F)
    (insert : DeviceInsertResult) : Option (PhysicalStateStore F) := do
  let chunkIndex := insert.chunkIndex
  let chunks := self.chunks ++ prepared.newChunk.toList
  let chunk ← chunks[chunkIndex]?
  let chunk ← chunk.pushRow
  some { chunks := chunks.set chunkIndex chunk }

def removeDevice (self : PhysicalStateStore F) (removal : DeviceRemoveResult) :
    Option (PhysicalStateStore F) := do
  let chunks ← Sidecar.removeRow self.chunks removal
  some { chunks }

/-- `read_logical_at`; `none` where it panics. -/
def readLogicalAt (self : PhysicalStateStore F) (device : DeviceId) (address : PhysicalStateAddress)
    (initializer : DefinitionStateInitializer F) : Option (Except PhysicalStateError F) :=
  match self.chunks[address.location.chunkIndex]? with
  | none => (stateNotInitialized device address.stateIndex).map .error
  | some chunk =>
    let row := address.location.row
    let stateIndex := address.stateIndex
    if row ≥ chunk.rowCount ∨ stateIndex ≥ chunk.stateCount then
      (stateNotInitialized device stateIndex).map .error
    else if chunk.isInitialized row then do
      let values ← chunk.rowValues row
      let value ← values[stateIndex]?
      some (.ok value)
    else
      match initializer with
      | .literal value => some (.ok value)

def validateAddress (self : PhysicalStateStore F) (state : DeviceState)
    (address : PhysicalStateAddress) : Except PhysicalStateError Unit :=
  if address.stateIndex ≠ state.state.index then .error (.stateNotInitialized state)
  else
    match self.chunks[address.location.chunkIndex]? with
    | none => .error (.stateNotInitialized state)
    | some chunk =>
      let row := address.location.row
      if row ≥ chunk.rowCount ∨ address.stateIndex ≥ chunk.stateCount then
        .error (.stateNotInitialized state)
      else .ok ()

def writePrevalidated (self : PhysicalStateStore F) (address : PhysicalStateAddress) (value : F) :
    Option (PhysicalStateStore F) := do
  let chunk ← self.chunks[address.location.chunkIndex]?
  let chunk ← chunk.setRowValue address.location.row address.stateIndex value
  some { chunks := self.chunks.set address.location.chunkIndex chunk }

def markInitializedPrevalidated (self : PhysicalStateStore F) (location : DeviceLocation) :
    Option (PhysicalStateStore F) := do
  let chunk ← self.chunks[location.chunkIndex]?
  some { chunks := self.chunks.set location.chunkIndex (chunk.setInitialized location.row) }

/-! ### Rows of devices -/

/-- How many states a device of a definition has. -/
def stateCountOf (registry : DefinitionRegistry F) (definition : DefinitionId) : Nat :=
  ((registry.get definition).map DeviceDefinition.stateCount).getD 0

theorem stateCountOf_known {registry : DefinitionRegistry F} {id : DefinitionId}
    {definition : DeviceDefinition F} (known : registry.get id = some definition) :
    stateCountOf registry id = definition.stateCount := by
  rw [stateCountOf, known, Option.map_some, Option.getD_some]

def Aligned (registry : DefinitionRegistry F) (store : PhysicalStateStore F) (arena : DeviceArena F) :
    Prop := Sidecar.Aligned (stateCountOf registry) store.chunks arena

/-- The states of a device. -/
def rowOf (store : PhysicalStateStore F) (arena : DeviceArena F) (device : DeviceId) :
    Option (StateRow F) := Sidecar.rowOf store.chunks arena device

variable {registry : DefinitionRegistry F} {self : PhysicalStateStore F} {arena after : DeviceArena F}
  {device : DeviceId}

/-- The states of the first rows of a chunk, up to this one, do not fit a vector. -/
def RowsOverflow (row : Nat) (definition : DeviceDefinition F) : Prop :=
  StateChunk.maxVecBytes < (row + 1) * definition.stateCount * 8

namespace Aligned

/-- A located device's chunk, with its row read as a list. -/
theorem site (h : Aligned registry self arena) (consistent : arena.Consistent registry)
    {location : DeviceLocation} (located : arena.locAt device.index = some location.loc) :
    ∃ chunk, self.chunks[location.chunkIndex]? = some chunk ∧ chunk.Shaped ∧
      location.row < chunk.rowCount ∧
      chunk.rows[location.row]? = some (chunk.rowOf location.row) ∧
      self.rowOf arena device = some (chunk.rowOf location.row) := by
  obtain ⟨chunk, row, hc, shaped, read, found, inside⟩ := Sidecar.Aligned.find h consistent located
  have inside : location.row < chunk.rowCount := inside
  have here : chunk.rows[location.row]? = some (chunk.rowOf location.row) := by
    rw [StateChunk.getElem?_rows, if_pos inside]
  obtain rfl := Option.some.inj (here.symm.trans read)
  exact ⟨chunk, hc, shaped, inside, here, found⟩

/-- One value of one device is overwritten. -/
theorem writePrevalidated_spec (h : Aligned registry self arena)
    (consistent : arena.Consistent registry) {address : PhysicalStateAddress} {row : StateRow F}
    (located : arena.locAt device.index = some address.location.loc)
    (found : self.rowOf arena device = some row) (inside : address.stateIndex < row.values.length)
    (value : F) :
    ∃ next, self.writePrevalidated address value = some next ∧ Aligned registry next arena ∧
      ∀ other, next.rowOf arena other = if other = device then
        some { row with values := row.values.set address.stateIndex value }
      else self.rowOf arena other := by
  obtain ⟨chunk, hc, shaped, hr, read, found'⟩ := site h consistent located
  obtain rfl := Option.some.inj (found'.symm.trans found)
  obtain ⟨edited, run, shaped', rows, stride, -⟩ := StateChunk.setRowValue_spec shaped hr
    ((StateChunk.length_rowOf shaped hr).symm ▸ inside) value
  obtain ⟨aligned, rowsOf⟩ := Sidecar.Aligned.written h consistent located hc read shaped' stride rows
  refine ⟨⟨self.chunks.set address.location.chunkIndex edited⟩, ?_, aligned, rowsOf⟩
  unfold writePrevalidated
  rw [bind_of_eq_some hc, bind_of_eq_some run]

/-- The row of one device is marked. -/
theorem markInitializedPrevalidated_spec (h : Aligned registry self arena)
    (consistent : arena.Consistent registry) {location : DeviceLocation} {row : StateRow F}
    (located : arena.locAt device.index = some location.loc)
    (found : self.rowOf arena device = some row) :
    ∃ next, self.markInitializedPrevalidated location = some next ∧ Aligned registry next arena ∧
      ∀ other, next.rowOf arena other = if other = device then some { row with initialized := true }
      else self.rowOf arena other := by
  obtain ⟨chunk, hc, shaped, hr, read, found'⟩ := site h consistent located
  obtain rfl := Option.some.inj (found'.symm.trans found)
  obtain ⟨shaped', rows⟩ := StateChunk.setInitialized_spec shaped hr
  obtain ⟨aligned, rowsOf⟩ := Sidecar.Aligned.written h consistent located hc read shaped' rfl rows
  refine ⟨⟨self.chunks.set location.chunkIndex (chunk.setInitialized location.row)⟩, ?_, aligned,
    rowsOf⟩
  unfold markInitializedPrevalidated
  rw [bind_of_eq_some hc]

theorem removeDevice_spec (h : Aligned registry self arena) (consistent : arena.Consistent registry)
    {loc : Loc} {chunk : DeviceChunk F} {result : DeviceRemoveResult}
    (located : arena.locAt device.index = some loc) (hc : arena.chunks[loc.1]? = some chunk)
    (model : DeviceArena.Removed registry arena after device loc chunk result) :
    ∃ next, self.removeDevice result = some next ∧ Aligned registry next after ∧
      next.rowOf after device = none ∧
      ∀ other, other ≠ device → next.rowOf after other = self.rowOf arena other := by
  obtain ⟨chunks, run, aligned, gone, kept⟩ := Sidecar.Aligned.removed h consistent located hc model
  refine ⟨⟨chunks⟩, ?_, aligned, gone, kept⟩
  unfold removeDevice
  rw [bind_of_eq_some run]

/-- A prepared device gets a row; it is not initialised, whatever row it reuses. -/
theorem addDevice_spec [F64 F] (h : Aligned registry self arena)
    (consistent : arena.Consistent registry) {prepared : PreparedDeviceInsert F}
    (ready : DeviceArena.Prepared registry arena prepared) {definition : DeviceDefinition F}
    (known : registry.get prepared.definitionId = some definition) :
    Returns (RowsOverflow prepared.location.row definition) (self.prepareAddDevice definition prepared) fun ours =>
      ¬ RowsOverflow prepared.location.row definition ∧ ∀ result after, DeviceArena.Inserted registry arena after prepared.device
          prepared.definitionId definition result → result.location = prepared.location →
        result.createdChunk = prepared.createdChunk →
        ∃ next, self.commitAddDevice ours result = some next ∧ Aligned registry next after ∧
          next.rowOf after prepared.device =
            some ⟨List.replicate definition.stateCount F64.zero, false⟩ ∧
          ∀ other, other ≠ prepared.device → next.rowOf after other = self.rowOf arena other := by
  have wide := stateCountOf_known known
  unfold prepareAddDevice
  rcases ready.place with ⟨created, chunk, hc, defined, len, room⟩ | ⟨created, location, -, -⟩
  · obtain ⟨side, hside, shaped, stride, count⟩ := Sidecar.Aligned.beside h hc
    have stride : side.stateCount = stateCountOf registry chunk.definitionId := stride
    have count : side.rowCount = chunk.len := count
    rw [defined, wide] at stride
    dsimp only
    rw [if_neg (by simp [created]), bind_of_eq_some hside, if_pos ⟨stride, count.trans len⟩]
    have reserve := StateChunk.reserveRows_returns shaped
    rw [stride, count.trans len] at reserve
    refine reserve.bind fun _ fits => Returns.of_eq_some rfl ⟨fits, ?_⟩
    intro result after model same sameChunk
    obtain ⟨pushed, run, shaped', rows, stride', -⟩ := StateChunk.pushRow_spec shaped (count ▸ room)
    have at' : result.chunkIndex = prepared.location.chunkIndex :=
      congrArg DeviceLocation.chunkIndex same
    rw [stride] at rows
    refine ⟨⟨self.chunks.set result.chunkIndex pushed⟩, ?_,
      Sidecar.Aligned.inserted h consistent model shaped' ?_ (Or.inr ⟨sameChunk.trans created, side, ?_, rows, rfl⟩)⟩
    · unfold commitAddDevice
      dsimp only
      rw [Option.toList_none, List.append_nil, at', bind_of_eq_some hside, bind_of_eq_some run]
    · exact stride'.trans (stride.trans wide.symm)
    · rw [at', hside]
  · dsimp only
    rw [if_pos created, location, if_pos ⟨(Sidecar.Aligned.length h).symm, rfl⟩]
    refine (StateChunk.reserveRows_returns (StateChunk.shaped_new (F := F) definition.stateCount)).bind
      fun _ fits => Returns.of_eq_some rfl ⟨fits, ?_⟩
    intro result after model same sameChunk
    obtain ⟨pushed, run, shaped', rows, stride', -⟩ := StateChunk.pushRow_spec
      (StateChunk.shaped_new (F := F) definition.stateCount) (Nat.succ_pos 63)
    have at' : result.chunkIndex = self.chunks.length := by
      rw [show result.chunkIndex = result.location.chunkIndex from rfl, same]
      exact (Sidecar.Aligned.length h).symm
    refine ⟨⟨self.chunks ++ [pushed]⟩, ?_,
      Sidecar.Aligned.inserted h consistent model shaped' ?_ (Or.inl ⟨sameChunk.trans created, rows, rfl⟩)⟩
    · unfold commitAddDevice
      dsimp only
      rw [at', Option.toList_some, bind_of_eq_some List.getElem?_concat_length, bind_of_eq_some run,
        List.set_append_right _ _ (Nat.le_refl _), Nat.sub_self]
      rfl
    · exact stride'.trans wide.symm

end Aligned

end PhysicalStateStore

end Hynergy
