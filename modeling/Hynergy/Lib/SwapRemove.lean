import Mathlib.Data.List.Perm.Basic
import Mathlib.Data.List.Nodup

/-!
# Vectors edited in place

`Vec::swap_remove`, guarded index assignment and the lemmas that say which index holds
what afterwards.
-/

namespace Hynergy.Lib

variable {α β : Type*}

/-- `v[i] = x`: `none` where the index is out of range. -/
def assign (l : List α) (i : Nat) (x : α) : Option (List α) :=
  if i < l.length then some (l.set i x) else none

@[simp] theorem assign_of_lt {l : List α} {i : Nat} (h : i < l.length) (x : α) :
    assign l i x = some (l.set i x) := if_pos h

theorem assign_eq_some {l l' : List α} {i : Nat} {x : α} :
    assign l i x = some l' ↔ i < l.length ∧ l' = l.set i x := by
  unfold assign
  split
  · simp_all [eq_comm]
  · simp_all [Nat.not_lt.mpr]

theorem set_of_getElem? {l : List α} {i : Nat} {x : α} (h : l[i]? = some x) : l.set i x = l := by
  obtain ⟨inside, rfl⟩ := List.getElem?_eq_some_iff.mp h
  exact List.set_getElem_self inside

/-- `Vec::swap_remove`: the last element takes the place of the removed one. -/
def swapRemove (l : List α) (i : Nat) : List α :=
  match l.getLast? with
  | none => l
  | some x => (l.set i x).dropLast

@[simp] theorem length_swapRemove (l : List α) (i : Nat) :
    (swapRemove l i).length = l.length - 1 := by
  unfold swapRemove
  split
  · simp_all
  · simp

theorem swapRemove_eq {l : List α} (i : Nat) (h : 0 < l.length) :
    swapRemove l i = (l.set i (l.get ⟨l.length - 1, by omega⟩)).dropLast := by
  unfold swapRemove
  rw [List.getLast?_eq_getElem?, List.getElem?_eq_getElem (by omega)]
  rfl

theorem getElem?_swapRemove {l : List α} {i : Nat} (h : i < l.length) (j : Nat) :
    (swapRemove l i)[j]? =
      if j + 1 < l.length then (if j = i then l[l.length - 1]? else l[j]?) else none := by
  rw [swapRemove_eq i (by omega), List.getElem?_dropLast, List.length_set]
  by_cases hj : j + 1 < l.length
  · rw [if_pos hj, if_pos (by omega), List.getElem?_set]
    by_cases hi : i = j
    · subst hi
      rw [if_pos rfl, if_pos rfl, if_pos h, List.getElem?_eq_getElem (by omega), List.get_eq_getElem]
    · rw [if_neg hi, if_neg (Ne.symm hi)]
  · rw [if_neg hj, if_neg (by omega)]

theorem swapRemove_last (l : List α) : swapRemove l (l.length - 1) = l.dropLast := by
  cases hl : l.length with
  | zero => simp [List.length_eq_zero_iff.mp hl, swapRemove]
  | succ n =>
    apply List.ext_getElem?
    intro j
    rw [getElem?_swapRemove (by omega), List.getElem?_dropLast]
    by_cases hj : j + 1 < l.length
    · rw [if_pos hj, if_neg (by omega), if_pos (by omega)]
    · rw [if_neg hj, if_neg (by omega)]

/-- The removed element's own value does not matter. -/
theorem swapRemove_set_self {l : List α} {i : Nat} (h : i < l.length) (x : α) :
    swapRemove (l.set i x) i = swapRemove l i := by
  apply List.ext_getElem?
  intro j
  rw [getElem?_swapRemove (by simpa using h), getElem?_swapRemove h, List.length_set]
  by_cases hj : j + 1 < l.length
  · rw [if_pos hj, if_pos hj]
    by_cases hi : j = i
    · rw [if_pos hi, if_pos hi, List.getElem?_set_ne (by omega)]
    · rw [if_neg hi, if_neg hi, List.getElem?_set_ne (by omega)]
  · rw [if_neg hj, if_neg hj]

theorem mem_of_mem_swapRemove {l : List α} {i : Nat} {x : α} (h : x ∈ swapRemove l i) : x ∈ l := by
  obtain ⟨j, hj⟩ := List.mem_iff_getElem?.mp h
  unfold swapRemove at hj
  split at hj
  · exact List.mem_of_getElem? hj
  · rename_i last hl
    rw [List.getElem?_dropLast] at hj
    split at hj
    · rw [List.getElem?_set] at hj
      split at hj
      · split at hj
        · obtain rfl := Option.some.inj hj
          exact List.mem_of_getLast? hl
        · simp at hj
      · exact List.mem_of_getElem? hj
    · simp at hj

theorem map_swapRemove (f : α → β) (l : List α) (i : Nat) :
    (swapRemove l i).map f = swapRemove (l.map f) i := by
  unfold swapRemove
  rw [List.getLast?_map]
  cases l.getLast? with
  | none => rfl
  | some x => simp [List.map_dropLast, List.map_set]

/-- `swap_remove` drops exactly the element at the index; only the order changes. -/
theorem zip_swapRemove {l : List α} {m : List β} {i : Nat} (h : i < l.length)
    (same : m.length = l.length) :
    (swapRemove l i).zip (swapRemove m i) = swapRemove (l.zip m) i := by
  have inside : i < (l.zip m).length := by
    rw [List.length_zip]
    omega
  apply List.ext_getElem?
  intro j
  rw [getElem?_swapRemove inside, List.length_zip, same, Nat.min_self, List.zip,
    List.getElem?_zipWith, List.getElem?_zipWith, List.getElem?_zipWith,
    getElem?_swapRemove h, getElem?_swapRemove (same ▸ h), same]
  by_cases kept : j + 1 < l.length
  · rw [if_pos kept, if_pos kept, if_pos kept]
    by_cases here : j = i
    · rw [if_pos here, if_pos here, if_pos here]
    · rw [if_neg here, if_neg here, if_neg here]
  · rw [if_neg kept, if_neg kept, if_neg kept]

theorem swapRemove_perm_eraseIdx {l : List α} {i : Nat} (h : i < l.length) :
    (swapRemove l i).Perm (l.eraseIdx i) := by
  obtain ⟨init, x, rfl⟩ : ∃ init x, l = init ++ [x] :=
    ⟨l.dropLast, l.getLast (by rintro rfl; simp at h), (List.dropLast_append_getLast _).symm⟩
  have hl : (init ++ [x]).getLast? = some x := by simp
  unfold swapRemove
  rw [hl]
  rcases Nat.lt_or_ge i init.length with hi | hi
  · dsimp only
    rw [List.set_append_left _ _ hi, List.dropLast_concat, List.eraseIdx_append_of_lt_length hi]
    rw [List.set_eq_take_append_cons_drop, if_pos hi, List.eraseIdx_eq_take_drop_succ,
      List.append_assoc]
    refine List.Perm.append_left _ ?_
    exact (List.perm_append_singleton x _).symm
  · have : i = init.length := by simp at h; omega
    subst this
    simp [List.eraseIdx_append_of_length_le]

theorem swapRemove_perm {l : List α} {i : Nat} {x : α} (h : l[i]? = some x) :
    l.Perm (x :: swapRemove l i) := by
  obtain ⟨hi, rfl⟩ := List.getElem?_eq_some_iff.mp h
  exact ((swapRemove_perm_eraseIdx hi).cons _ |>.trans (List.getElem_cons_eraseIdx_perm hi)).symm

theorem mem_swapRemove {l : List α} {i : Nat} {x y : α} (nodup : l.Nodup) (h : l[i]? = some x) :
    y ∈ swapRemove l i ↔ y ∈ l ∧ y ≠ x := by
  have perm := swapRemove_perm h
  have fresh := (List.nodup_cons.mp (perm.nodup_iff.mp nodup)).1
  rw [perm.mem_iff, List.mem_cons]
  constructor
  · intro hy
    exact ⟨Or.inr hy, fun same => fresh (same ▸ hy)⟩
  · rintro ⟨rfl | hy, different⟩
    · exact absurd rfl different
    · exact hy

theorem nodup_swapRemove {l : List α} {i : Nat} (nodup : l.Nodup) (h : i < l.length) :
    (swapRemove l i).Nodup :=
  ((swapRemove_perm_eraseIdx h).nodup_iff).mpr (nodup.sublist (List.eraseIdx_sublist _ _))

/-- The position `Iterator::position` finds, with the element there. -/
theorem getElem?_findIdx {l : List α} {p : α → Bool} {x : α} (member : x ∈ l) (holds : p x = true) :
    ∃ y, l[l.findIdx p]? = some y ∧ p y = true := by
  have found : l.findIdx p < l.length := List.findIdx_lt_length_of_exists ⟨x, member, holds⟩
  exact ⟨l[l.findIdx p], List.getElem?_eq_getElem found, List.findIdx_getElem⟩

end Hynergy.Lib
