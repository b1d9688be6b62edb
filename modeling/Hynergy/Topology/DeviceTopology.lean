import Hynergy.Lib.Strided
import Hynergy.Network.Sidecar

/-!
# Topology sidecar chunks

Beside each device chunk lies a chunk that names, for each row and each partition, the island
of that component.
-/

namespace Hynergy

open Lib

/-- `DEVICE_CHUNK_ROWS`. -/
def deviceChunkRows : Nat := 64

structure DeviceTopologyChunk where
  partitionCount : Nat
  rowCount : Nat
  componentIslands : List IslandId
  deriving DecidableEq

namespace DeviceTopologyChunk

def new (partitionCount : Nat) : DeviceTopologyChunk := ⟨partitionCount, 0, []⟩

def pushRowIter (self : DeviceTopologyChunk) (islands : List IslandId) :
    Option DeviceTopologyChunk :=
  if self.rowCount < deviceChunkRows ∧ islands.length = self.partitionCount then
    some { self with
      componentIslands := self.componentIslands ++ islands, rowCount := self.rowCount + 1 }
  else none

def rowIslands (self : DeviceTopologyChunk) (row : Nat) : Option (List IslandId) :=
  if row < self.rowCount then
    slice self.componentIslands (row * self.partitionCount) self.partitionCount
  else none

def componentIsland (self : DeviceTopologyChunk) (row partition : Nat) : Option IslandId :=
  if row < self.rowCount ∧ partition < self.partitionCount then
    self.componentIslands[row * self.partitionCount + partition]?
  else none

def setComponentIsland (self : DeviceTopologyChunk) (row partition : Nat) (island : IslandId) :
    Option DeviceTopologyChunk := do
  if row < self.rowCount ∧ partition < self.partitionCount then
    let componentIslands ←
      assign self.componentIslands (row * self.partitionCount + partition) island
    some { self with componentIslands }
  else none

def removeRow (self : DeviceTopologyChunk) (row : Nat) : Option DeviceTopologyChunk :=
  let rowCount := self.rowCount
  if row < rowCount then
    let last := rowCount - 1
    let componentIslands :=
      if self.partitionCount ≠ 0 ∧ row ≠ last then
        copyWithin self.componentIslands (last * self.partitionCount) self.partitionCount
          (row * self.partitionCount)
      else self.componentIslands
    some { self with
      componentIslands := componentIslands.take (last * self.partitionCount), rowCount := last }
  else none

/-! ### A chunk as a list of rows -/

def rows (self : DeviceTopologyChunk) : List (List IslandId) :=
  Lib.rows self.partitionCount self.rowCount self.componentIslands

def Shaped (self : DeviceTopologyChunk) : Prop :=
  self.componentIslands.length = self.rowCount * self.partitionCount

variable {self : DeviceTopologyChunk}

theorem shaped_new (partitionCount : Nat) : (new partitionCount).Shaped := by simp [Shaped, new]

@[simp] theorem rows_new (partitionCount : Nat) : (new partitionCount).rows = [] := rfl

@[simp] theorem length_rows : self.rows.length = self.rowCount := Lib.length_rows ..

theorem width (shaped : self.Shaped) {r : Nat} {islands : List IslandId}
    (read : self.rows[r]? = some islands) : islands.length = self.partitionCount := by
  rw [rows, getElem?_rows] at read
  split at read
  · obtain rfl := Option.some.inj read
    exact length_row shaped (by assumption)
  · simp at read

theorem pushRowIter_spec (shaped : self.Shaped) (room : self.rowCount < deviceChunkRows)
    {islands : List IslandId} (width : islands.length = self.partitionCount) :
    ∃ next, self.pushRowIter islands = some next ∧ next.Shaped ∧ next.rows = self.rows ++ [islands] ∧
      next.partitionCount = self.partitionCount ∧ next.rowCount = self.rowCount + 1 := by
  unfold pushRowIter
  rw [if_pos ⟨room, width⟩]
  refine ⟨_, rfl, ?_, rows_append shaped width, rfl, rfl⟩
  simp only [Shaped, List.length_append, width, Nat.succ_mul]
  rw [show self.componentIslands.length = self.rowCount * self.partitionCount from shaped]

theorem rowIslands_eq (shaped : self.Shaped) (r : Nat) : self.rowIslands r = self.rows[r]? := by
  unfold rowIslands
  rw [rows, getElem?_rows]
  split
  · exact slice_row shaped (by assumption)
  · rfl

theorem componentIsland_eq (r p : Nat) :
    self.componentIsland r p = self.rows[r]?.bind fun islands => islands[p]? := by
  unfold componentIsland
  rw [rows, getElem?_rows]
  by_cases hr : r < self.rowCount
  · rw [if_pos hr, Option.bind_some, getElem?_row]
    simp only [hr, true_and]
  · rw [if_neg hr, if_neg (fun both => hr both.1), Option.bind_none]

theorem setComponentIsland_spec (shaped : self.Shaped) {r p : Nat} {islands : List IslandId}
    (read : self.rows[r]? = some islands) (hp : p < islands.length) (island : IslandId) :
    ∃ next, self.setComponentIsland r p island = some next ∧ next.Shaped ∧
      next.rows = self.rows.set r (islands.set p island) ∧
      next.partitionCount = self.partitionCount ∧ next.rowCount = self.rowCount := by
  have hr : r < self.rowCount := by
    have := (List.getElem?_eq_some_iff.mp read).1
    simpa using this
  rw [width shaped read] at hp
  have inside : r * self.partitionCount + p < self.componentIslands.length := by
    rw [show self.componentIslands.length = self.rowCount * self.partitionCount from shaped]
    exact mul_add_lt _ hr hp
  rw [rows, getElem?_rows, if_pos hr] at read
  obtain rfl := Option.some.inj read
  unfold setComponentIsland
  rw [if_pos ⟨hr, hp⟩, assign_of_lt inside]
  refine ⟨_, rfl, ?_, rows_set hp hr, rfl, rfl⟩
  rw [Shaped, List.length_set]
  exact shaped

/-- Removing a row is `swap_remove` on the rows. -/
theorem removeRow_spec (shaped : self.Shaped) {r : Nat} (inside : r < self.rowCount) :
    ∃ next, self.removeRow r = some next ∧ next.Shaped ∧ next.rows = swapRemove self.rows r ∧
      next.partitionCount = self.partitionCount ∧ next.rowCount = self.rowCount - 1 := by
  unfold removeRow
  dsimp only
  rw [if_pos inside, take_copyWithin shaped (by simp_all)]
  exact ⟨_, rfl, length_swapRemoveStride shaped inside, rows_swapRemoveStride shaped inside, rfl, rfl⟩

instance : SidecarChunk DeviceTopologyChunk (List IslandId) where
  stride := partitionCount
  rowCount := rowCount
  removeRow := removeRow
  rows := rows
  Shaped := Shaped
  length_rows _ := length_rows
  removeRow_spec _ _ shaped inside := by
    obtain ⟨next, run, shaped', rows, stride, -⟩ := removeRow_spec shaped inside
    exact ⟨next, run, shaped', rows, stride⟩

end DeviceTopologyChunk

end Hynergy
