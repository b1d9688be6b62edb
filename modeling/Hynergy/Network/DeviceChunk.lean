import Hynergy.Lib.ChunkTable
import Hynergy.Lib.Strided
import Hynergy.Model.Definition
import Hynergy.Model.Outcome
import Hynergy.Network.Connection

/-!
# Device chunks

Packed locators, directory entries and the chunk with its strided columns. `DeviceChunk.rows`
reads a chunk as a list of rows; every edit of the columns is an edit of that list.
-/

namespace Hynergy

open Lib

variable {F : Type}

def deviceChunkCapacity : Nat := 64

def deviceRowBits : Nat := 6

def deviceRowMask : Nat := (1 <<< deviceRowBits) - 1

def maxDeviceChunks : Nat := 1 <<< 25

def firstUnloadedEntry : Nat := 0x80000001

/-! ### Locators and directory entries -/

structure DeviceLocator where
  raw : Nat
  deriving DecidableEq

namespace DeviceLocator

def new (chunkIndex row : Nat) : Option DeviceLocator :=
  if chunkIndex ≥ maxDeviceChunks ∨ row ≥ deviceChunkCapacity then none
  else some ⟨chunkIndex <<< deviceRowBits ||| row⟩

def chunkIndex (self : DeviceLocator) : Nat := self.raw >>> deviceRowBits

def row (self : DeviceLocator) : Nat := self.raw &&& deviceRowMask

theorem new_eq_some {chunkIndex row : Nat} {locator : DeviceLocator} :
    new chunkIndex row = some locator ↔
      chunkIndex < maxDeviceChunks ∧ row < deviceChunkCapacity ∧
        locator.raw = chunkIndex * 64 + row := by
  unfold new
  by_cases outside : chunkIndex ≥ maxDeviceChunks ∨ row ≥ deviceChunkCapacity
  · rw [if_pos outside]
    simp only [reduceCtorEq, false_iff]
    omega
  · rw [if_neg outside]
    have small : row < 2 ^ 6 := by simp only [deviceChunkCapacity] at outside; omega
    have packed : chunkIndex <<< deviceRowBits ||| row = chunkIndex * 64 + row := by
      rw [deviceRowBits, ← Nat.shiftLeft_add_eq_or_of_lt small, Nat.shiftLeft_eq]
    rw [packed]
    constructor
    · rintro h
      obtain rfl := Option.some.inj h
      exact ⟨by omega, by omega, rfl⟩
    · rintro ⟨-, -, h⟩
      cases locator
      exact congrArg (some ∘ DeviceLocator.mk) h.symm

theorem chunkIndex_eq (self : DeviceLocator) : self.chunkIndex = self.raw / 64 := by
  rw [chunkIndex, Nat.shiftRight_eq_div_pow, deviceRowBits]

theorem row_eq (self : DeviceLocator) : self.row = self.raw % 64 := by
  rw [row, show deviceRowMask = 2 ^ 6 - 1 from rfl, Nat.and_two_pow_sub_one_eq_mod]

/-- A packed locator decodes to what it encodes. -/
theorem decode_new {chunkIndex row : Nat} {locator : DeviceLocator}
    (h : new chunkIndex row = some locator) :
    locator.chunkIndex = chunkIndex ∧ locator.row = row := by
  obtain ⟨-, small, raw⟩ := new_eq_some.mp h
  simp only [deviceChunkCapacity] at small
  rw [chunkIndex_eq, row_eq, raw]
  omega

theorem new_isSome {chunkIndex row : Nat} (hc : chunkIndex < maxDeviceChunks)
    (hr : row < deviceChunkCapacity) : ∃ locator, new chunkIndex row = some locator := by
  unfold new
  rw [if_neg (by omega)]
  exact ⟨_, rfl⟩

end DeviceLocator

structure DeviceDirectoryEntry where
  raw : Nat
  deriving DecidableEq

namespace DeviceDirectoryEntry

def unassigned : DeviceDirectoryEntry := ⟨0⟩

def resident (locator : DeviceLocator) : DeviceDirectoryEntry := ⟨locator.raw + 1⟩

def isUnassigned (self : DeviceDirectoryEntry) : Bool := self.raw = 0

def residentLocator (self : DeviceDirectoryEntry) : Option DeviceLocator :=
  if self.raw = 0 ∨ self.raw ≥ firstUnloadedEntry then none else some ⟨self.raw - 1⟩

@[simp] theorem residentLocator_unassigned : unassigned.residentLocator = none := rfl

/-- A resident entry is never mistaken for an unloaded one. -/
theorem residentLocator_resident {chunkIndex row : Nat} {locator : DeviceLocator}
    (h : DeviceLocator.new chunkIndex row = some locator) :
    (resident locator).residentLocator = some locator := by
  obtain ⟨hc, hr, raw⟩ := DeviceLocator.new_eq_some.mp h
  simp only [maxDeviceChunks, deviceChunkCapacity, Nat.shiftLeft_eq] at hc hr
  unfold residentLocator resident firstUnloadedEntry
  rw [if_neg (by dsimp only; omega)]
  rfl

/-- The location an entry names. -/
def loc (self : DeviceDirectoryEntry) : Option Loc :=
  self.residentLocator.map fun locator => (locator.chunkIndex, locator.row)

@[simp] theorem loc_unassigned : unassigned.loc = none := rfl

theorem loc_resident {chunkIndex row : Nat} {locator : DeviceLocator}
    (h : DeviceLocator.new chunkIndex row = some locator) :
    (resident locator).loc = some (chunkIndex, row) := by
  obtain ⟨hc, hr⟩ := DeviceLocator.decode_new h
  rw [loc, residentLocator_resident h, Option.map_some, hc, hr]

/-- The entry is free or locates a row; no record is ever unloaded. -/
def Loaded (self : DeviceDirectoryEntry) : Prop := self.raw < firstUnloadedEntry

theorem loaded_unassigned : unassigned.Loaded := Nat.zero_lt_succ _

theorem loaded_resident {chunkIndex row : Nat} {locator : DeviceLocator}
    (h : DeviceLocator.new chunkIndex row = some locator) : (resident locator).Loaded := by
  obtain ⟨hc, hr, raw⟩ := DeviceLocator.new_eq_some.mp h
  simp only [maxDeviceChunks, deviceChunkCapacity, Nat.shiftLeft_eq] at hc hr
  simp only [Loaded, resident, firstUnloadedEntry]
  omega

theorem isUnassigned_iff {self : DeviceDirectoryEntry} (loaded : self.Loaded) :
    self.isUnassigned = true ↔ self.loc = none := by
  simp only [isUnassigned, loc, residentLocator, Loaded] at *
  by_cases free : self.raw = 0
  · simp [free]
  · rw [if_neg (by omega)]
    simp [free]

end DeviceDirectoryEntry

/-- Where a device's row lies. -/
structure DeviceLocation where
  chunkIndex : Nat
  row : Nat
  deriving DecidableEq

namespace DeviceLocation

def ofLocator (locator : DeviceLocator) : DeviceLocation := ⟨locator.chunkIndex, locator.row⟩

def loc (self : DeviceLocation) : Loc := (self.chunkIndex, self.row)

end DeviceLocation

/-! ### Chunks -/

structure DeviceChunk (F : Type) where
  definitionId : DefinitionId
  terminalCount : Nat
  parameterCount : Nat
  deviceIds : List DeviceId
  terminals : List (Option ConnectionRef)
  parameters : List F

/-- One row of a chunk with the columns cut to it. -/
structure DeviceRow (F : Type) where
  device : DeviceId
  definitionId : DefinitionId
  terminals : List (Option ConnectionRef)
  parameters : List F

section

variable [F64 F]

/-- `UNASSIGNED_PARAMETER`. -/
def unassignedParameter : F := F64.infinity

def decodeParameter (value : F) : Option F :=
  if F64.beq value unassignedParameter then none else some value

end

namespace DeviceChunk

def new (definitionId : DefinitionId) (definition : DeviceDefinition F) : DeviceChunk F where
  definitionId := definitionId
  terminalCount := definition.terminals.length
  parameterCount := definition.parameters.length
  deviceIds := []
  terminals := []
  parameters := []

def len (self : DeviceChunk F) : Nat := self.deviceIds.length

def isFull (self : DeviceChunk F) : Bool := self.len = deviceChunkCapacity

/-- `push_empty_row`; a full chunk is left alone. -/
def pushEmptyRow [F64 F] (self : DeviceChunk F) (device : DeviceId) : Bool × DeviceChunk F :=
  if self.isFull then (false, self)
  else
    (true, { self with
      deviceIds := self.deviceIds ++ [device]
      terminals := self.terminals ++ List.replicate self.terminalCount none
      parameters := self.parameters ++ List.replicate self.parameterCount unassignedParameter })

def terminalIndex (self : DeviceChunk F) (row : Nat) (terminal : TerminalId) : Option Nat :=
  if terminal.index < self.terminalCount then some (row * self.terminalCount + terminal.index)
  else none

def parameterIndex (self : DeviceChunk F) (row : Nat) (parameter : ParameterId) : Option Nat :=
  if parameter.index < self.parameterCount then
    some (row * self.parameterCount + parameter.index)
  else none

/-- `remove_row`: the device moved into the row, and the chunk; `none` where the row's bound
is not met. -/
def removeRow (self : DeviceChunk F) (row : Nat) : Option (Option DeviceId × DeviceChunk F) :=
  let rowCount := self.len
  if row < rowCount then
    let lastRow := rowCount - 1
    let movedDevice := if row ≠ lastRow then self.deviceIds[lastRow]? else none
    let deviceIds :=
      match movedDevice with
      | some moved => self.deviceIds.set row moved
      | none => self.deviceIds
    some (movedDevice, { self with
      terminals := swapRemoveStride self.terminals row rowCount self.terminalCount
      parameters := swapRemoveStride self.parameters row rowCount self.parameterCount
      deviceIds := deviceIds.dropLast })
  else none

def terminalsAt (self : DeviceChunk F) (row : Nat) : List (Option ConnectionRef) :=
  Lib.row self.terminalCount self.terminals row

def parametersAt (self : DeviceChunk F) (row : Nat) : List F :=
  Lib.row self.parameterCount self.parameters row

def rowOf (self : DeviceChunk F) (row : Nat) (device : DeviceId) : DeviceRow F where
  device := device
  definitionId := self.definitionId
  terminals := self.terminalsAt row
  parameters := self.parametersAt row

def rows (self : DeviceChunk F) : List (DeviceRow F) := self.deviceIds.mapIdx self.rowOf

/-- The columns have one row for each device. -/
structure Shaped (chunk : DeviceChunk F) : Prop where
  terminals : chunk.terminals.length = chunk.len * chunk.terminalCount
  parameters : chunk.parameters.length = chunk.len * chunk.parameterCount

@[simp] theorem length_rows (self : DeviceChunk F) : self.rows.length = self.len := by
  simp [rows, len]

theorem getElem?_rows (self : DeviceChunk F) (r : Nat) :
    self.rows[r]? = self.deviceIds[r]?.map (self.rowOf r) := by
  simp [rows]

@[simp] theorem isFull_iff {self : DeviceChunk F} : self.isFull = true ↔ self.len = 64 := by
  exact decide_eq_true_iff

theorem shaped_new (id : DefinitionId) (definition : DeviceDefinition F) :
    (new id definition).Shaped :=
  ⟨by simp [new, len], by simp [new, len]⟩

/-- The row a chunk starts a device with: nothing attached, no parameter assigned. -/
def emptyRow [F64 F] (self : DeviceChunk F) (device : DeviceId) : DeviceRow F where
  device := device
  definitionId := self.definitionId
  terminals := List.replicate self.terminalCount none
  parameters := List.replicate self.parameterCount unassignedParameter

theorem pushEmptyRow_spec [F64 F] {self : DeviceChunk F} (shaped : self.Shaped)
    (room : self.len < deviceChunkCapacity) (device : DeviceId) :
    ∃ next, self.pushEmptyRow device = (true, next) ∧ next.Shaped ∧
      next.rows = self.rows ++ [self.emptyRow device] ∧ next.definitionId = self.definitionId ∧
      next.terminalCount = self.terminalCount ∧ next.parameterCount = self.parameterCount := by
  have open' : ¬ self.isFull = true := by
    simp only [deviceChunkCapacity] at room
    rw [isFull_iff]; omega
  unfold pushEmptyRow
  rw [if_neg open']
  have len' : ∀ terminals parameters, (DeviceChunk.mk self.definitionId self.terminalCount
      self.parameterCount (self.deviceIds ++ [device]) terminals (parameters : List F)).len =
      self.len + 1 := fun _ _ => by simp [len]
  refine ⟨_, rfl, ⟨?_, ?_⟩, ?_, rfl, rfl, rfl⟩
  · rw [len', List.length_append, shaped.terminals, List.length_replicate, Nat.succ_mul]
  · rw [len', List.length_append, shaped.parameters, List.length_replicate, Nat.succ_mul]
  · apply List.ext_getElem?
    intro r
    rw [getElem?_rows]
    rcases Nat.lt_trichotomy r self.len with old | last | outside
    · rw [List.getElem?_append_left (by simpa [len] using old),
        List.getElem?_append_left (by simpa [len] using old), getElem?_rows]
      congr 1
      funext d
      simp only [rowOf, terminalsAt, parametersAt, row_append_old shaped.terminals old,
        row_append_old shaped.parameters old]
    · subst last
      rw [List.getElem?_append_right (by simp [len]), List.getElem?_append_right (by simp)]
      simp only [len, Nat.sub_self, List.getElem?_cons_zero, Option.map_some, length_rows]
      simp only [rowOf, terminalsAt, parametersAt, emptyRow]
      rw [show self.deviceIds.length = self.len from rfl,
        row_append_new shaped.terminals (List.length_replicate ..),
        row_append_new shaped.parameters (List.length_replicate ..)]
    · rw [List.getElem?_eq_none (by simp [len] at *; omega),
        List.getElem?_eq_none (by simp [len] at *; omega)]
      rfl

/-- Removing a row is `swap_remove` on the rows. -/
theorem removeRow_spec {self : DeviceChunk F} (shaped : self.Shaped) {row : Nat}
    (inside : row < self.len) :
    ∃ moved next, self.removeRow row = some (moved, next) ∧ next.Shaped ∧
      next.rows = swapRemove self.rows row ∧ next.definitionId = self.definitionId ∧
      next.terminalCount = self.terminalCount ∧ next.parameterCount = self.parameterCount ∧
      moved = (if row ≠ self.len - 1 then self.deviceIds[self.len - 1]? else none) := by
  have ids : (match (if row ≠ self.len - 1 then self.deviceIds[self.len - 1]? else none) with
      | some moved => self.deviceIds.set row moved
      | none => self.deviceIds).dropLast = swapRemove self.deviceIds row := by
    have bound : self.len - 1 < self.deviceIds.length := by simp only [len] at *; omega
    rw [swapRemove_eq row (by omega)]
    by_cases last : row = self.len - 1
    · rw [if_neg (by simpa using last)]
      have self_set : self.deviceIds.set row (self.deviceIds.get ⟨self.deviceIds.length - 1, by omega⟩) =
          self.deviceIds := by
        apply List.ext_getElem?
        intro i
        rw [List.getElem?_set]
        split
        · rename_i same
          simp only [len] at last
          subst same
          rw [if_pos (by omega), List.getElem?_eq_getElem (by omega)]
          simp only [last, List.get_eq_getElem]
        · rfl
      rw [self_set]
    · rw [if_pos last, List.getElem?_eq_getElem bound]
      rfl
  unfold removeRow
  dsimp only
  rw [if_pos inside]
  have shrunk : ∀ terminals parameters, (DeviceChunk.mk self.definitionId self.terminalCount
      self.parameterCount (swapRemove self.deviceIds row) terminals (parameters : List F)).len =
      self.len - 1 := fun _ _ => by simp [len]
  refine ⟨_, _, rfl, ?_, ?_, rfl, rfl, rfl, rfl⟩
  · constructor
    · rw [ids, shrunk]
      exact length_swapRemoveStride shaped.terminals inside
    · rw [ids, shrunk]
      exact length_swapRemoveStride shaped.parameters inside
  · rw [ids]
    apply List.ext_getElem?
    intro k
    rw [getElem?_rows, getElem?_swapRemove (show row < self.deviceIds.length from inside),
      getElem?_swapRemove (by simpa using inside), length_rows]
    by_cases kept : k + 1 < self.len
    · rw [if_pos (show k + 1 < self.deviceIds.length from kept), if_pos kept]
      have cut : ∀ d, rowOf (DeviceChunk.mk self.definitionId self.terminalCount
          self.parameterCount (swapRemove self.deviceIds row)
          (swapRemoveStride self.terminals row self.len self.terminalCount)
          (swapRemoveStride self.parameters row self.len self.parameterCount)) k d =
          self.rowOf (if k = row then self.len - 1 else k) d := by
        intro d
        simp only [rowOf, terminalsAt, parametersAt,
          row_swapRemoveStride shaped.terminals inside (show k < self.len - 1 by omega),
          row_swapRemoveStride shaped.parameters inside (show k < self.len - 1 by omega)]
        split <;> rfl
      by_cases here : k = row
      · rw [if_pos here, if_pos here, getElem?_rows]
        congr 1
        funext d
        rw [cut, if_pos here]
      · rw [if_neg here, if_neg here, getElem?_rows]
        congr 1
        funext d
        rw [cut, if_neg here]
    · rw [if_neg (show ¬ k + 1 < self.deviceIds.length from kept), if_neg kept]
      rfl

end DeviceChunk

end Hynergy
