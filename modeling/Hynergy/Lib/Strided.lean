import Hynergy.Lib.SwapRemove
import Mathlib.Tactic.Ring

/-!
# Rows of a fixed stride in one flat vector

A column of a chunk keeps `count` rows of `stride` values one after the other. `rows`
reads the rows back; the flat edits (append a row, overwrite one value, move the last row
into a removed one) are the corresponding edits of the list of rows.
-/

namespace Hynergy.Lib

variable {α : Type*}

/-- Row `r` of a flat vector. -/
def row (stride : Nat) (l : List α) (r : Nat) : List α := (l.drop (r * stride)).take stride

/-- The first `count` rows of a flat vector. -/
def rows (stride count : Nat) (l : List α) : List (List α) := (List.range count).map (row stride l)

/-- `copy_within(src..src + len, dst)`. -/
def copyWithin (l : List α) (src len dst : Nat) : List α :=
  l.take dst ++ ((l.drop src).take len ++ l.drop (dst + len))

/-- Move the last of `count` rows over row `r` and drop the last row. -/
def swapRemoveStride (l : List α) (r count stride : Nat) : List α :=
  if stride = 0 then l
  else
    let last := count - 1
    let moved := if r ≠ last then copyWithin l (last * stride) stride (r * stride) else l
    moved.take (last * stride)

theorem mul_add_lt {r count j : Nat} (stride : Nat) (hr : r < count) (hj : j < stride) :
    r * stride + j < count * stride := by
  calc r * stride + j < r * stride + stride := by omega
    _ = (r + 1) * stride := by ring
    _ ≤ count * stride := Nat.mul_le_mul_right _ hr

theorem row_end_le {r k : Nat} (stride : Nat) (h : r < k) : r * stride + stride ≤ k * stride := by
  calc r * stride + stride = (r + 1) * stride := by ring
    _ ≤ k * stride := Nat.mul_le_mul_right _ h

@[simp] theorem length_rows (stride count : Nat) (l : List α) :
    (rows stride count l).length = count := by simp [rows]

theorem getElem?_rows {stride count : Nat} {l : List α} (r : Nat) :
    (rows stride count l)[r]? = if r < count then some (row stride l r) else none := by
  simp only [rows, List.getElem?_map]
  split <;> simp_all

theorem length_row {stride count r : Nat} {l : List α} (full : l.length = count * stride)
    (hr : r < count) : (row stride l r).length = stride := by
  have := row_end_le stride hr
  simp only [row, List.length_take, List.length_drop, full]
  omega

theorem length_row_le (stride : Nat) (l : List α) (r : Nat) : (row stride l r).length ≤ stride := by
  simp only [row, List.length_take]
  omega

theorem getElem?_row (stride : Nat) (l : List α) (r j : Nat) :
    (row stride l r)[j]? = if j < stride then l[r * stride + j]? else none := by
  simp only [row, List.getElem?_take, List.getElem?_drop]

theorem length_copyWithin {l : List α} {src len dst : Nat} (hs : src + len ≤ l.length)
    (hd : dst + len ≤ l.length) : (copyWithin l src len dst).length = l.length := by
  simp only [copyWithin, List.length_append, List.length_take, List.length_drop]
  omega

theorem getElem?_copyWithin {l : List α} {src len dst : Nat} (hs : src + len ≤ l.length)
    (hd : dst + len ≤ l.length) (j : Nat) :
    (copyWithin l src len dst)[j]? =
      if dst ≤ j ∧ j < dst + len then l[src + (j - dst)]? else l[j]? := by
  have htake : (l.take dst).length = dst := by rw [List.length_take]; omega
  have hmid : ((l.drop src).take len).length = len := by
    rw [List.length_take, List.length_drop]; omega
  unfold copyWithin
  by_cases before : j < dst
  · rw [List.getElem?_append_left (by omega), List.getElem?_take, if_pos before, if_neg (by omega)]
  · rw [List.getElem?_append_right (by omega), htake]
    by_cases inside : j < dst + len
    · rw [List.getElem?_append_left (by omega), List.getElem?_take, if_pos (by omega),
        List.getElem?_drop, if_pos (by omega)]
    · rw [List.getElem?_append_right (by omega), hmid, List.getElem?_drop, if_neg (by omega)]
      congr 1; omega

theorem length_swapRemoveStride {l : List α} {r count stride : Nat}
    (full : l.length = count * stride) (hr : r < count) :
    (swapRemoveStride l r count stride).length = (count - 1) * stride := by
  unfold swapRemoveStride
  have hlast := row_end_le stride (show count - 1 < count by omega)
  have hrow := row_end_le stride hr
  split
  · simp_all
  · dsimp only
    rw [List.length_take]
    split
    · rw [length_copyWithin (by omega) (by omega)]; omega
    · omega

theorem row_swapRemoveStride {l : List α} {r count stride k : Nat}
    (full : l.length = count * stride) (hr : r < count) (hk : k < count - 1) :
    row stride (swapRemoveStride l r count stride) k =
      if k = r then row stride l (count - 1) else row stride l k := by
  have hlast := row_end_le stride (show count - 1 < count by omega)
  have hrow := row_end_le stride hr
  have hkept := row_end_le stride hk
  apply List.ext_getElem?
  intro j
  have rhs : (if k = r then row stride l (count - 1) else row stride l k)[j]? =
      if j < stride then l[(if k = r then count - 1 else k) * stride + j]? else none := by
    split <;> rw [getElem?_row]
  rw [rhs, getElem?_row]
  by_cases hj : j < stride
  swap
  · rw [if_neg hj, if_neg hj]
  rw [if_pos hj, if_pos hj]
  unfold swapRemoveStride
  rw [if_neg (by omega)]
  dsimp only
  rw [List.getElem?_take, if_pos (by omega)]
  by_cases self : r = count - 1
  · rw [if_neg (by simpa using self), if_neg (by omega)]
  rw [if_pos self, getElem?_copyWithin (by omega) (by omega)]
  by_cases target : k = r
  · subst target
    rw [if_pos (by omega), if_pos rfl]
    congr 1; omega
  · rw [if_neg target]
    rcases Nat.lt_or_gt_of_ne target with below | above
    · have := row_end_le stride below
      rw [if_neg (by omega)]
    · have := row_end_le stride above
      rw [if_neg (by omega)]

/-- Removing a strided row is `swap_remove` on the list of rows. -/
theorem rows_swapRemoveStride {l : List α} {r count stride : Nat}
    (full : l.length = count * stride) (hr : r < count) :
    rows stride (count - 1) (swapRemoveStride l r count stride) =
      swapRemove (rows stride count l) r := by
  apply List.ext_getElem?
  intro k
  rw [getElem?_rows, getElem?_swapRemove (by simpa using hr), length_rows]
  by_cases hk : k < count - 1
  · rw [if_pos hk, if_pos (by omega), row_swapRemoveStride full hr hk]
    rw [getElem?_rows, getElem?_rows, if_pos (show count - 1 < count by omega),
      if_pos (show k < count by omega)]
    split <;> rfl
  · rw [if_neg hk, if_neg (by omega)]

/-- The same with the copy guarded by the caller's own test. -/
theorem take_copyWithin {l : List α} {r count stride : Nat} (full : l.length = count * stride)
    {moves : Prop} [Decidable moves] (test : stride ≠ 0 → (moves ↔ r ≠ count - 1)) :
    (if moves then copyWithin l ((count - 1) * stride) stride (r * stride) else l).take
      ((count - 1) * stride) = swapRemoveStride l r count stride := by
  unfold swapRemoveStride
  by_cases flat : stride = 0
  · subst flat
    rw [Nat.mul_zero, List.length_eq_zero_iff] at full
    subst full
    simp
  · rw [if_neg flat]
    simp only [test flat]

/-- A slice, `none` where it is out of range. -/
def slice (l : List α) (start len : Nat) : Option (List α) :=
  if start + len ≤ l.length then some ((l.drop start).take len) else none

theorem slice_row {l : List α} {stride count r : Nat} (full : l.length = count * stride)
    (hr : r < count) : slice l (r * stride) stride = some (row stride l r) := by
  have := row_end_le stride hr
  rw [slice, if_pos (by omega), row]

theorem row_append_old {l x : List α} {stride count r : Nat} (full : l.length = count * stride)
    (hr : r < count) : row stride (l ++ x) r = row stride l r := by
  have := row_end_le stride hr
  apply List.ext_getElem?
  intro j
  rw [getElem?_row, getElem?_row]
  split
  · rw [List.getElem?_append_left (by omega)]
  · rfl

theorem row_append_new {l x : List α} {stride count : Nat} (full : l.length = count * stride)
    (width : x.length = stride) : row stride (l ++ x) count = x := by
  rw [row, ← full, List.drop_left, ← width, List.take_length]

/-- Appending one row of values. -/
theorem rows_append {l x : List α} {stride count : Nat} (full : l.length = count * stride)
    (width : x.length = stride) :
    rows stride (count + 1) (l ++ x) = rows stride count l ++ [x] := by
  simp only [rows, List.range_succ, List.map_append, List.map_cons, List.map_nil,
    row_append_new full width, List.append_cancel_right_eq]
  apply List.map_congr_left
  intro r member
  exact row_append_old full (List.mem_range.mp member)

theorem row_set {l : List α} {stride r j : Nat} {x : α} (hj : j < stride) (k : Nat) :
    row stride (l.set (r * stride + j) x) k =
      if k = r then (row stride l r).set j x else row stride l k := by
  apply List.ext_getElem?
  intro i
  rw [getElem?_row]
  by_cases hi : i < stride
  swap
  · rw [if_neg hi, eq_comm, List.getElem?_eq_none]
    have short := fun r => length_row_le stride l r
    split
    · rw [List.length_set]
      exact (short r).trans (Nat.not_lt.mp hi)
    · exact (short k).trans (Nat.not_lt.mp hi)
  rw [if_pos hi, List.getElem?_set]
  by_cases same : k = r
  · subst same
    rw [if_pos rfl, List.getElem?_set, getElem?_row, if_pos hi]
    by_cases here : j = i
    · subst here
      have bound : j < (row stride l k).length ↔ k * stride + j < l.length := by
        simp only [row, List.length_take, List.length_drop]; omega
      simp only [if_true, bound]
    · rw [if_neg (by omega), if_neg here]
  · rw [if_neg same, getElem?_row, if_pos hi]
    rcases Nat.lt_or_gt_of_ne same with below | above
    · have := mul_add_lt stride below hi
      rw [if_neg (by omega)]
    · have := mul_add_lt stride above hj
      rw [if_neg (by omega)]

/-- Overwriting one value of one row. -/
theorem rows_set {l : List α} {stride count r j : Nat} {x : α} (hj : j < stride) (hr : r < count) :
    rows stride count (l.set (r * stride + j) x) =
      (rows stride count l).set r ((row stride l r).set j x) := by
  apply List.ext_getElem?
  intro k
  rw [List.getElem?_set, getElem?_rows, getElem?_rows, row_set hj, length_rows]
  by_cases same : k = r
  · subst same; simp [hr]
  · simp [same, Ne.symm same]

end Hynergy.Lib
