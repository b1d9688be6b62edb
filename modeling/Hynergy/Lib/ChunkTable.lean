import Hynergy.Lib.SwapRemove

/-!
# Chunks of rows

A table is a vector of chunks, a chunk a nonempty vector of rows. A row is removed by
`swap_remove` inside its chunk, and a chunk left empty by `swap_remove` among the chunks.
`relocate` is where that moves every other row; it only depends on how many chunks there
are and how many rows the removed one's chunk had, so tables of one shape stay aligned.
-/

namespace Hynergy.Lib

abbrev ChunkTable (ρ : Type*) := List (List ρ)

/-- A chunk index and a row in it. -/
abbrev Loc := Nat × Nat

namespace ChunkTable

variable {ρ τ : Type*}

def rowAt (t : ChunkTable ρ) (loc : Loc) : Option ρ := t[loc.1]?.bind (·[loc.2]?)

/-- Append a row to chunk `c`. -/
def pushRow (t : ChunkTable ρ) (c : Nat) (x : ρ) : ChunkTable ρ := t.modify c (· ++ [x])

/-- Overwrite the row at `loc`. -/
def setRow (t : ChunkTable ρ) (loc : Loc) (x : ρ) : ChunkTable ρ := t.modify loc.1 (·.set loc.2 x)

def removeRow (t : ChunkTable ρ) (loc : Loc) : ChunkTable ρ :=
  match t[loc.1]? with
  | none => t
  | some chunk =>
    if chunk.length ≤ 1 then swapRemove t loc.1 else t.set loc.1 (swapRemove chunk loc.2)

/-- Where a surviving row goes when the row `removed` of a chunk of `rows` rows, one of
`chunks`, is removed. -/
def relocate (chunks rows : Nat) (removed loc : Loc) : Loc :=
  if rows ≤ 1 then (if loc.1 = chunks - 1 then (removed.1, loc.2) else loc)
  else if loc.1 = removed.1 ∧ loc.2 = rows - 1 then removed else loc

theorem rowAt_eq_some {t : ChunkTable ρ} {loc : Loc} {x : ρ} :
    t.rowAt loc = some x ↔ ∃ chunk, t[loc.1]? = some chunk ∧ chunk[loc.2]? = some x := by
  simp [rowAt, Option.bind_eq_some_iff]

theorem pushRow_eq_set {t : ChunkTable ρ} {c : Nat} {chunk : List ρ} (hc : t[c]? = some chunk)
    (x : ρ) : t.pushRow c x = t.set c (chunk ++ [x]) := by
  apply List.ext_getElem?
  intro i
  rw [pushRow, List.getElem?_modify, List.getElem?_set]
  by_cases here : c = i
  · subst here
    rw [if_pos rfl, if_pos (List.getElem?_eq_some_iff.mp hc).1, hc]
    simp
  · simp [here]

theorem setRow_eq_set {t : ChunkTable ρ} {loc : Loc} {chunk : List ρ} (hc : t[loc.1]? = some chunk)
    (x : ρ) : t.setRow loc x = t.set loc.1 (chunk.set loc.2 x) := by
  apply List.ext_getElem?
  intro i
  rw [setRow, List.getElem?_modify, List.getElem?_set]
  by_cases here : loc.1 = i
  · subst here
    rw [if_pos rfl, if_pos (List.getElem?_eq_some_iff.mp hc).1, hc]
    simp
  · simp [here]

theorem rowAt_pushRow {t : ChunkTable ρ} {c : Nat} {chunk : List ρ} (hc : t[c]? = some chunk)
    (x : ρ) (loc : Loc) :
    (t.pushRow c x).rowAt loc = if loc = (c, chunk.length) then some x else t.rowAt loc := by
  obtain ⟨i, j⟩ := loc
  simp only [rowAt, pushRow, List.getElem?_modify, Prod.mk.injEq]
  by_cases hi : c = i
  · subst hi
    simp only [if_true, hc, Option.map_eq_map, Option.map_some, Option.bind_some, true_and]
    rw [List.getElem?_append]
    by_cases hj : j < chunk.length
    · rw [if_pos hj, if_neg (by omega)]
    · rw [if_neg hj]
      by_cases hn : j = chunk.length
      · simp [hn]
      · rw [if_neg hn, List.getElem?_eq_none (by simp; omega), List.getElem?_eq_none (by omega)]
  · simp [hi, Ne.symm hi]

theorem rowAt_newChunk (t : ChunkTable ρ) (x : ρ) (loc : Loc) :
    ChunkTable.rowAt (t ++ [[x]]) loc = if loc = (t.length, 0) then some x else t.rowAt loc := by
  obtain ⟨i, j⟩ := loc
  simp only [rowAt, List.getElem?_append, Prod.mk.injEq]
  by_cases hi : i < t.length
  · rw [if_pos hi, if_neg (by omega)]
  · rw [if_neg hi]
    by_cases hn : i = t.length
    · subst hn
      cases j with
      | zero => simp
      | succ j => simp
    · rw [if_neg (by omega), List.getElem?_eq_none (by simp; omega),
        List.getElem?_eq_none (by omega)]

theorem rowAt_setRow (t : ChunkTable ρ) (loc : Loc) (x : ρ) (at' : Loc) :
    (t.setRow loc x).rowAt at' = if at' = loc then (t.rowAt loc).map fun _ => x else t.rowAt at' := by
  obtain ⟨i, j⟩ := loc
  obtain ⟨k, l⟩ := at'
  simp only [rowAt, setRow, List.getElem?_modify, Prod.mk.injEq]
  by_cases hk : i = k
  · subst hk
    cases hc : t[i]? with
    | none => simp
    | some chunk =>
      simp only [if_true, Option.map_eq_map, Option.map_some, Option.bind_some, true_and]
      rw [List.getElem?_set]
      by_cases hl : j = l
      · subst hl
        by_cases inside : j < chunk.length
        · simp [inside]
        · simp [inside]
      · simp [hl, Ne.symm hl]
  · simp [hk, Ne.symm hk]

section Remove

variable {t : ChunkTable ρ} {removed : Loc} {chunk : List ρ}

theorem removeRow_of_chunk (hc : t[removed.1]? = some chunk) :
    t.removeRow removed =
      if chunk.length ≤ 1 then swapRemove t removed.1
      else t.set removed.1 (swapRemove chunk removed.2) := by
  simp only [removeRow, hc]

/-- Every surviving row is found unchanged where `relocate` says. -/
theorem rowAt_relocate (hc : t[removed.1]? = some chunk) (hr : removed.2 < chunk.length)
    {loc : Loc} {x : ρ} (survives : loc ≠ removed) (h : t.rowAt loc = some x) :
    (t.removeRow removed).rowAt (relocate t.length chunk.length removed loc) = some x := by
  obtain ⟨i, j⟩ := loc
  obtain ⟨c, r⟩ := removed
  obtain ⟨other, ho, hx⟩ := rowAt_eq_some.mp h
  have hclen : c < t.length := (List.getElem?_eq_some_iff.mp hc).1
  have hilen : i < t.length := (List.getElem?_eq_some_iff.mp ho).1
  have hj : j < other.length := (List.getElem?_eq_some_iff.mp hx).1
  dsimp only at hc hr ho hx
  rw [removeRow_of_chunk hc, relocate]
  by_cases single : chunk.length ≤ 1
  · rw [if_pos single, if_pos single]
    -- the emptied chunk goes; the last chunk takes its index
    have different : i ≠ c := by
      rintro rfl
      obtain rfl := Option.some.inj (hc.symm.trans ho)
      exact survives (by rw [show j = r by omega])
    apply rowAt_eq_some.mpr
    refine ⟨other, ?_, ?_⟩
    · rw [getElem?_swapRemove hclen]
      split
      · rename_i last
        dsimp only at last ⊢
        rw [if_pos (by omega), if_pos rfl, ← last, ho]
      · rename_i notLast
        dsimp only at notLast ⊢
        rw [if_pos (by omega), ho]
    · split <;> exact hx
  · rw [if_neg single, if_neg single]
    apply rowAt_eq_some.mpr
    by_cases same : i = c
    · subst same
      obtain rfl := Option.some.inj (hc.symm.trans ho)
      have different : j ≠ r := fun e => survives (by rw [e])
      refine ⟨swapRemove chunk r, ?_, ?_⟩
      · split <;> simp [hilen]
      · rw [getElem?_swapRemove hr]
        split
        · rename_i last
          dsimp only at last ⊢
          rw [if_pos (by omega), if_pos rfl, ← last.2, hx]
        · rename_i notLast
          dsimp only at notLast ⊢
          rw [if_pos (by omega), hx]
    · refine ⟨other, ?_, ?_⟩
      · rw [if_neg (fun both => same both.1), List.getElem?_set_ne (Ne.symm same), ho]
      · rw [if_neg (fun both => same both.1)]
        exact hx

/-- Nothing but the surviving rows is left. -/
theorem rowAt_removeRow (hc : t[removed.1]? = some chunk) (hr : removed.2 < chunk.length)
    {loc : Loc} {x : ρ} (h : (t.removeRow removed).rowAt loc = some x) :
    ∃ old, old ≠ removed ∧ t.rowAt old = some x ∧
      relocate t.length chunk.length removed old = loc := by
  obtain ⟨i, j⟩ := loc
  obtain ⟨c, r⟩ := removed
  have hclen : c < t.length := (List.getElem?_eq_some_iff.mp hc).1
  dsimp only at hc hr
  rw [removeRow_of_chunk hc] at h
  by_cases single : chunk.length ≤ 1
  · rw [if_pos single] at h
    obtain ⟨other, ho, hx⟩ := rowAt_eq_some.mp h
    dsimp only at ho hx
    rw [getElem?_swapRemove hclen] at ho
    split at ho
    · rename_i hi
      split at ho
      · rename_i same
        refine ⟨(t.length - 1, j), ?_, rowAt_eq_some.mpr ⟨other, ho, hx⟩, ?_⟩
        · intro e
          have := congrArg Prod.fst e
          dsimp only at this
          omega
        · simp [relocate, single, same]
      · rename_i different
        refine ⟨(i, j), ?_, rowAt_eq_some.mpr ⟨other, ho, hx⟩, ?_⟩
        · exact fun e => different (congrArg Prod.fst e)
        · simp only [relocate, if_pos single]
          rw [if_neg (by omega)]
    · simp at ho
  · rw [if_neg single] at h
    obtain ⟨other, ho, hx⟩ := rowAt_eq_some.mp h
    dsimp only at ho hx
    by_cases same : i = c
    · subst same
      rw [List.getElem?_set_self hclen] at ho
      obtain rfl := Option.some.inj ho
      rw [getElem?_swapRemove hr] at hx
      split at hx
      · rename_i hj
        split at hx
        · rename_i taken
          subst taken
          refine ⟨(i, chunk.length - 1), ?_, rowAt_eq_some.mpr ⟨chunk, hc, hx⟩, ?_⟩
          · intro e
            have := congrArg Prod.snd e
            dsimp only at this
            omega
          · simp [relocate, single]
        · rename_i different
          refine ⟨(i, j), ?_, rowAt_eq_some.mpr ⟨chunk, hc, hx⟩, ?_⟩
          · exact fun e => different (congrArg Prod.snd e)
          · simp only [relocate, if_neg single]
            rw [if_neg (by omega)]
      · simp at hx
    · rw [List.getElem?_set_ne (Ne.symm same)] at ho
      refine ⟨(i, j), fun e => same (congrArg Prod.fst e), rowAt_eq_some.mpr ⟨other, ho, hx⟩, ?_⟩
      simp only [relocate, if_neg single]
      rw [if_neg (fun both => same both.1)]

end Remove

/-! ### Shapes -/

/-- How many rows each chunk has. -/
def shape (t : ChunkTable ρ) : List Nat := t.map List.length

theorem length_eq_of_shape {t : ChunkTable ρ} {u : ChunkTable τ} (h : t.shape = u.shape) :
    t.length = u.length := by
  simpa [shape] using congrArg List.length h

theorem chunk_of_shape {t : ChunkTable ρ} {u : ChunkTable τ} (h : t.shape = u.shape) {c : Nat}
    {chunk : List ρ} (hc : t[c]? = some chunk) :
    ∃ other, u[c]? = some other ∧ other.length = chunk.length := by
  have := congrArg (·[c]?) h
  simp only [shape, List.getElem?_map, hc, Option.map_some] at this
  obtain ⟨other, ho, hl⟩ := Option.map_eq_some_iff.mp this.symm
  exact ⟨other, ho, hl⟩

theorem rowAt_of_shape {t : ChunkTable ρ} {u : ChunkTable τ} (h : t.shape = u.shape) {loc : Loc}
    {x : ρ} (hx : t.rowAt loc = some x) : ∃ y, u.rowAt loc = some y := by
  obtain ⟨chunk, hc, hr⟩ := rowAt_eq_some.mp hx
  obtain ⟨other, ho, hl⟩ := chunk_of_shape h hc
  have hlt : loc.2 < other.length := hl ▸ (List.getElem?_eq_some_iff.mp hr).1
  exact ⟨other[loc.2], rowAt_eq_some.mpr ⟨other, ho, List.getElem?_eq_getElem hlt⟩⟩

end ChunkTable

end Hynergy.Lib
