import Hynergy.Lib.Strided
import Hynergy.Lib.Word
import Hynergy.Model.Float
import Hynergy.Network.Sidecar

/-!
# State chunks

The values of the states of up to 64 devices, row after row, and a bit for each row that says
whether its values were ever written.
-/

namespace Hynergy

open Lib

variable {F : Type}

structure StateChunk (F : Type) where
  stateCount : Nat
  rowCount : Nat
  values : List F
  initialized : BitVec 64

/-- A row of a chunk: a device's states and whether they were ever written. -/
structure StateRow (F : Type) where
  values : List F
  initialized : Bool

namespace StateChunk

/-- `DEVICE_CHUNK_ROWS`. -/
def deviceChunkRows : Nat := 64

/-- `isize::MAX`, the most bytes a vector may take. -/
def maxVecBytes : Nat := 2 ^ 63 - 1

def new (stateCount : Nat) : StateChunk F := ⟨stateCount, 0, [], 0⟩

/-- `Vec::reserve` panics where the values with the new ones take too many bytes. -/
def reserveRows (self : StateChunk F) (additional : Nat) : Option Unit :=
  let values := min (additional * self.stateCount) (2 ^ 64 - 1)
  if (self.values.length + values) * 8 ≤ maxVecBytes then some () else none

def pushRow [F64 F] (self : StateChunk F) : Option (StateChunk F) :=
  if self.rowCount < deviceChunkRows then
    some { self with
      values := self.values ++ List.replicate self.stateCount F64.zero
      rowCount := self.rowCount + 1 }
  else none

def rowValues (self : StateChunk F) (row : Nat) : Option (List F) :=
  if row < self.rowCount then slice self.values (row * self.stateCount) self.stateCount else none

/-- `row_values_mut(row)[index] = value`. -/
def setRowValue (self : StateChunk F) (row index : Nat) (value : F) : Option (StateChunk F) := do
  let rowValues ← self.rowValues row
  if index < rowValues.length then
    let values ← assign self.values (row * self.stateCount + index) value
    some { self with values }
  else none

def isInitialized (self : StateChunk F) (row : Nat) : Bool :=
  self.initialized &&& bit row != 0

def setInitialized (self : StateChunk F) (row : Nat) : StateChunk F :=
  { self with initialized := self.initialized ||| bit row }

def removeRow (self : StateChunk F) (row : Nat) : Option (StateChunk F) :=
  let rowCount := self.rowCount
  if row < rowCount then
    let last := rowCount - 1
    let values :=
      if row ≠ last ∧ self.stateCount ≠ 0 then
        copyWithin self.values (last * self.stateCount) self.stateCount (row * self.stateCount)
      else self.values
    let initialized :=
      if row ≠ last then
        if self.isInitialized last then self.initialized ||| bit row
        else self.initialized &&& ~~~bit row
      else self.initialized
    some { self with
      initialized := initialized &&& ~~~bit last
      values := values.take (last * self.stateCount)
      rowCount := last }
  else none

/-! ### A chunk as a list of rows -/

def rowOf (self : StateChunk F) (row : Nat) : StateRow F :=
  ⟨Lib.row self.stateCount self.values row, self.initialized.getLsbD row⟩

def rows (self : StateChunk F) : List (StateRow F) := (List.range self.rowCount).map self.rowOf

/-- Every row is full, and no bit is set outside the rows. -/
structure Shaped (chunk : StateChunk F) : Prop where
  values : chunk.values.length = chunk.rowCount * chunk.stateCount
  bounded : chunk.rowCount ≤ deviceChunkRows
  clear : ∀ r, chunk.rowCount ≤ r → chunk.initialized.getLsbD r = false

variable {self : StateChunk F}

@[simp] theorem length_rows : self.rows.length = self.rowCount := by simp [rows]

theorem getElem?_rows (r : Nat) :
    self.rows[r]? = if r < self.rowCount then some (self.rowOf r) else none := by
  simp only [rows, List.getElem?_map]
  split <;> simp_all

theorem shaped_new (stateCount : Nat) : (new stateCount : StateChunk F).Shaped :=
  ⟨by simp [new], Nat.zero_le _, fun _ _ => BitVec.getLsbD_zero⟩

/-- One more row is reserved unless the values would take too many bytes. -/
theorem reserveRows_returns (shaped : self.Shaped) :
    Returns (maxVecBytes < (self.rowCount + 1) * self.stateCount * 8) (self.reserveRows 1)
      fun _ => ¬ maxVecBytes < (self.rowCount + 1) * self.stateCount * 8 := by
  have fits : (self.values.length + min (1 * self.stateCount) (2 ^ 64 - 1)) * 8 ≤ maxVecBytes ↔
      ¬ maxVecBytes < (self.rowCount + 1) * self.stateCount * 8 := by
    rw [shaped.values, Nat.one_mul, Nat.succ_mul]
    unfold maxVecBytes
    omega
  unfold reserveRows
  dsimp only
  split
  · exact fits.mp ‹_›
  · rename_i full
    exact Nat.not_le.mp fun less => full (fits.mpr (Nat.not_lt.mpr less))

theorem isInitialized_eq {r : Nat} (hr : r < 64) :
    self.isInitialized r = self.initialized.getLsbD r := by
  rw [Bool.eq_iff_iff, ← and_bit_ne_zero hr, isInitialized, bne_iff_ne]

theorem pushRow_spec [F64 F] (shaped : self.Shaped) (room : self.rowCount < deviceChunkRows) :
    ∃ next, self.pushRow = some next ∧ next.Shaped ∧
      next.rows = self.rows ++ [⟨List.replicate self.stateCount F64.zero, false⟩] ∧
      next.stateCount = self.stateCount ∧ next.rowCount = self.rowCount + 1 := by
  unfold pushRow
  rw [if_pos room]
  refine ⟨_, rfl, ⟨?_, room, ?_⟩, ?_, rfl, rfl⟩
  · rw [List.length_append, shaped.values, List.length_replicate, Nat.succ_mul]
  · intro r outside
    exact shaped.clear r (Nat.le_of_succ_le outside)
  · apply List.ext_getElem?
    intro r
    rw [getElem?_rows]
    dsimp only
    rcases Nat.lt_trichotomy r self.rowCount with old | last | outside
    · rw [if_pos (by omega), List.getElem?_append_left (by simpa using old), getElem?_rows, if_pos old]
      simp only [rowOf, row_append_old shaped.values old]
    · subst last
      rw [if_pos (by omega), List.getElem?_append_right (by simp), length_rows, Nat.sub_self]
      simp only [rowOf, List.getElem?_cons_zero,
        row_append_new shaped.values (List.length_replicate ..), shaped.clear _ (Nat.le_refl _)]
    · rw [if_neg (by omega), List.getElem?_eq_none (by simp; omega)]

theorem rowValues_eq (shaped : self.Shaped) {r : Nat} (hr : r < self.rowCount) :
    self.rowValues r = some (self.rowOf r).values := by
  rw [rowValues, if_pos hr, slice_row shaped.values hr]
  rfl

theorem length_rowOf (shaped : self.Shaped) {r : Nat} (hr : r < self.rowCount) :
    (self.rowOf r).values.length = self.stateCount := length_row shaped.values hr

theorem setRowValue_spec (shaped : self.Shaped) {r index : Nat} (hr : r < self.rowCount)
    (inside : index < self.stateCount) (value : F) :
    ∃ next, self.setRowValue r index value = some next ∧ next.Shaped ∧
      next.rows = self.rows.set r
        { self.rowOf r with values := (self.rowOf r).values.set index value } ∧
      next.stateCount = self.stateCount ∧ next.rowCount = self.rowCount := by
  have place : r * self.stateCount + index < self.values.length := by
    rw [shaped.values]
    exact mul_add_lt _ hr inside
  unfold setRowValue
  rw [bind_of_eq_some (rowValues_eq shaped hr), length_rowOf shaped hr, if_pos inside,
    assign_of_lt place]
  refine ⟨_, rfl, ⟨by rw [List.length_set]; exact shaped.values, shaped.bounded, shaped.clear⟩, ?_,
    rfl, rfl⟩
  apply List.ext_getElem?
  intro k
  rw [getElem?_rows, List.getElem?_set, getElem?_rows, length_rows]
  simp only [rowOf, row_set inside]
  by_cases same : k = r
  · subst same
    simp [hr]
  · simp [same, Ne.symm same]

theorem setInitialized_spec (shaped : self.Shaped) {r : Nat} (hr : r < self.rowCount) :
    (self.setInitialized r).Shaped ∧
      (self.setInitialized r).rows = self.rows.set r { self.rowOf r with initialized := true } := by
  have small : r < 64 := Nat.lt_of_lt_of_le hr shaped.bounded
  have bits : ∀ i, (self.setInitialized r).initialized.getLsbD i =
      (self.initialized.getLsbD i || decide (i = r)) := by
    intro i
    rw [setInitialized, BitVec.getLsbD_or, getLsbD_bit small]
  refine ⟨⟨shaped.values, shaped.bounded, ?_⟩, ?_⟩
  · intro i outside
    have outside : self.rowCount ≤ i := outside
    rw [bits, shaped.clear i outside]
    simp only [Bool.false_or, decide_eq_false_iff_not]
    omega
  · apply List.ext_getElem?
    intro k
    rw [getElem?_rows, List.getElem?_set, getElem?_rows, length_rows]
    simp only [rowOf, bits]
    by_cases same : k = r
    · subst same
      simp [setInitialized, hr]
    · simp [same, Ne.symm same, setInitialized]

/-- The bits after a removal: the last row's in the removed one's place, none from the last
row on. -/
theorem getLsbD_removeRow (shaped : self.Shaped) {r : Nat} (inside : r < self.rowCount) (k : Nat) :
    ((if r ≠ self.rowCount - 1 then
        if self.isInitialized (self.rowCount - 1) then self.initialized ||| bit r
        else self.initialized &&& ~~~bit r
      else self.initialized) &&& ~~~bit (self.rowCount - 1)).getLsbD k =
      if k + 1 < self.rowCount then
        self.initialized.getLsbD (if k = r then self.rowCount - 1 else k)
      else false := by
  have bounded : self.rowCount ≤ 64 := shaped.bounded
  have hr : r < 64 := by omega
  rw [isInitialized_eq (by omega)]
  rcases Nat.lt_or_ge k 64 with small | large
  swap
  · rw [BitVec.getLsbD_of_ge _ _ large, if_neg (by omega)]
  rw [BitVec.getLsbD_and, BitVec.getLsbD_not, getLsbD_bit (by omega)]
  by_cases kept : k + 1 < self.rowCount
  · rw [if_pos kept]
    simp only [small, show ¬ k = self.rowCount - 1 by omega, decide_true, decide_false, Bool.not_false,
      Bool.and_true]
    by_cases here : k = r
    · subst here
      rw [if_pos rfl, if_pos (by omega)]
      cases bit : self.initialized.getLsbD (self.rowCount - 1) <;>
        simp [getLsbD_bit small, small]
    · rw [if_neg here]
      split
      · split
        · rw [BitVec.getLsbD_or, getLsbD_bit hr, decide_eq_false here, Bool.or_false]
        · rw [BitVec.getLsbD_and, BitVec.getLsbD_not, getLsbD_bit hr, decide_eq_false here,
            decide_eq_true small, Bool.not_false, Bool.and_true, Bool.and_true]
      · rfl
  · rw [if_neg kept]
    by_cases last : k = self.rowCount - 1
    · simp [last]
    · have beyond := shaped.clear k (by omega)
      have notHere : k ≠ r := by omega
      simp only [last, decide_false, Bool.not_false, Bool.and_true, small, decide_true]
      split
      · split
        · rw [BitVec.getLsbD_or, getLsbD_bit hr, decide_eq_false notHere, beyond, Bool.or_false]
        · rw [BitVec.getLsbD_and, beyond, Bool.false_and]
      · exact beyond

/-- Removing a row is `swap_remove` on the rows. -/
theorem removeRow_spec (shaped : self.Shaped) {r : Nat} (inside : r < self.rowCount) :
    ∃ next, self.removeRow r = some next ∧ next.Shaped ∧ next.rows = swapRemove self.rows r ∧
      next.stateCount = self.stateCount ∧ next.rowCount = self.rowCount - 1 := by
  unfold removeRow
  dsimp only
  rw [if_pos inside, take_copyWithin shaped.values (by simp_all)]
  have bits := getLsbD_removeRow shaped inside
  revert bits
  generalize (if r ≠ self.rowCount - 1 then
      if self.isInitialized (self.rowCount - 1) then self.initialized ||| bit r
      else self.initialized &&& ~~~bit r
    else self.initialized) &&& ~~~bit (self.rowCount - 1) = initialized
  intro bits
  refine ⟨_, rfl, ⟨length_swapRemoveStride shaped.values inside, ?_, ?_⟩, ?_, rfl, rfl⟩
  · have := shaped.bounded
    show self.rowCount - 1 ≤ deviceChunkRows
    omega
  · intro k outside
    have outside : self.rowCount - 1 ≤ k := outside
    rw [bits, if_neg (by omega)]
  · apply List.ext_getElem?
    intro k
    rw [getElem?_rows, getElem?_swapRemove (by simpa using inside), length_rows]
    dsimp only
    by_cases kept : k + 1 < self.rowCount
    · rw [if_pos (by omega), if_pos kept]
      have cut := row_swapRemoveStride shaped.values inside (show k < self.rowCount - 1 by omega)
      by_cases here : k = r
      · rw [if_pos here, getElem?_rows, if_pos (by omega)]
        rw [if_pos here] at cut
        simp only [rowOf, bits, cut, if_pos kept, if_pos here]
      · rw [if_neg here, getElem?_rows, if_pos (by omega)]
        rw [if_neg here] at cut
        simp only [rowOf, bits, cut, if_pos kept, if_neg here]
    · rw [if_neg (by omega), if_neg kept]

instance : SidecarChunk (StateChunk F) (StateRow F) where
  stride := stateCount
  rowCount := rowCount
  removeRow := removeRow
  rows := rows
  Shaped := Shaped
  length_rows _ := length_rows
  removeRow_spec _ _ shaped inside := by
    obtain ⟨next, run, shaped', rows, stride, -⟩ := removeRow_spec shaped inside
    exact ⟨next, run, shaped', rows, stride⟩

end StateChunk

end Hynergy
