import Hynergy.Lib.Returns
import Hynergy.Network.ArenaEdit
import Hynergy.Network.ArenaRemove

/-!
# Sidecars of the device chunks

Other stores keep a chunk beside each device chunk, with a row for each of its rows. They
follow every insertion and removal positionally; a device's sidecar row is found through the
arena's directory.
-/

namespace Hynergy

open Lib

variable {F χ τ : Type}

/-- A chunk of rows of one width. -/
class SidecarChunk (χ : Type) (τ : outParam Type) where
  stride : χ → Nat
  rowCount : χ → Nat
  removeRow : χ → Nat → Option χ
  rows : χ → List τ
  Shaped : χ → Prop
  length_rows : ∀ chunk, (rows chunk).length = rowCount chunk
  removeRow_spec : ∀ chunk r, Shaped chunk → r < rowCount chunk → ∃ next,
    removeRow chunk r = some next ∧ Shaped next ∧ rows next = swapRemove (rows chunk) r ∧
      stride next = stride chunk

namespace Sidecar

open SidecarChunk

variable [SidecarChunk χ τ]

/-- Remove a row, and the chunk it leaves empty, where the model did. -/
def removeRow (chunks : List χ) (removal : DeviceRemoveResult) : Option (List χ) := do
  let chunkIndex := removal.removedChunk
  let row := removal.removedRow
  let chunk ← chunks[chunkIndex]?
  let chunk ← SidecarChunk.removeRow chunk row
  let chunks := chunks.set chunkIndex chunk
  if rowCount chunk ≠ 0 then some chunks
  else
    match removal.chunkRelocation with
    | some relocation =>
      if relocation.toChunk = chunkIndex ∧ relocation.fromChunk = chunks.length - 1 then
        some (swapRemove chunks chunkIndex)
      else none
    | none => if chunkIndex = chunks.length - 1 then some chunks.dropLast else none

def table (chunks : List χ) : ChunkTable τ := chunks.map rows

/-- A device's sidecar row. -/
def rowOf (chunks : List χ) (arena : DeviceArena F) (device : DeviceId) : Option τ :=
  lookup (table chunks) arena.locAt device.index

/-- Chunk by chunk the same number of rows, of the width the chunk's definition asks for. -/
structure Aligned (width : DefinitionId → Nat) (chunks : List χ) (arena : DeviceArena F) : Prop where
  shaped : ∀ chunk ∈ chunks, Shaped chunk
  heads : chunks.map (fun chunk => (stride chunk, rowCount chunk)) =
    arena.heads.map fun head => (width head.1, head.2)

variable {registry : DefinitionRegistry F} {width : DefinitionId → Nat} {chunks next : List χ}
  {arena after : DeviceArena F}

namespace Aligned

theorem shape (h : Aligned width chunks arena) : arena.table.shape = (table chunks).shape := by
  have counts := congrArg (List.map Prod.snd) h.heads
  simp only [List.map_map, DeviceArena.heads] at counts
  simp only [ChunkTable.shape, DeviceArena.table, table, List.map_map]
  refine Eq.trans ?_ (counts.symm.trans ?_)
  · apply List.map_congr_left
    intro chunk _
    exact chunk.length_rows
  · apply List.map_congr_left
    intro chunk _
    exact (length_rows chunk).symm

theorem length (h : Aligned width chunks arena) : chunks.length = arena.chunks.length := by
  simpa [DeviceArena.heads] using congrArg List.length h.heads

/-- The sidecar chunk beside a device chunk. -/
theorem beside (h : Aligned width chunks arena) {c : Nat} {chunk : DeviceChunk F}
    (hc : arena.chunks[c]? = some chunk) :
    ∃ side, chunks[c]? = some side ∧ Shaped side ∧ stride side = width chunk.definitionId ∧
      rowCount side = chunk.len := by
  have head := congrArg (·[c]?) h.heads
  simp only [List.getElem?_map, DeviceArena.getElem?_heads hc, Option.map_some] at head
  obtain ⟨side, hs, counts⟩ := Option.map_eq_some_iff.mp head
  obtain ⟨hw, hn⟩ := Prod.mk.inj counts
  exact ⟨side, hs, h.shaped side (List.mem_of_getElem? hs), hw, hn⟩

/-- Where a located device's sidecar row lies. -/
theorem find (h : Aligned width chunks arena) (consistent : arena.Consistent registry)
    {device : DeviceId} {loc : Loc} (located : arena.locAt device.index = some loc) :
    ∃ side y, chunks[loc.1]? = some side ∧ Shaped side ∧ (rows side)[loc.2]? = some y ∧
      rowOf chunks arena device = some y ∧ loc.2 < rowCount side := by
  obtain ⟨y, found, at'⟩ := consistent.indexes.sidecar h.shape located
  obtain ⟨beside, hb, hy⟩ := ChunkTable.rowAt_eq_some.mp at'
  rw [table, List.getElem?_map] at hb
  obtain ⟨side, hs, rfl⟩ := Option.map_eq_some_iff.mp hb
  refine ⟨side, y, hs, h.shaped side (List.mem_of_getElem? hs), hy, found, ?_⟩
  rw [← SidecarChunk.length_rows]
  exact (List.getElem?_eq_some_iff.mp hy).1

theorem rowOf_isSome (h : Aligned width chunks arena) (consistent : arena.Consistent registry)
    (device : DeviceId) : (rowOf chunks arena device).isSome = (arena.record device).isSome :=
  consistent.indexes.sidecar_isSome h.shape device.index

/-- An edit of the arena that leaves every device in its place. -/
theorem congr (h : Aligned width chunks arena) (directory : after.directory = arena.directory)
    (heads : after.heads = arena.heads) :
    Aligned width chunks after ∧ rowOf chunks after = rowOf chunks arena := by
  refine ⟨⟨h.shaped, by rw [heads]; exact h.heads⟩, ?_⟩
  funext device
  rw [rowOf, rowOf, show after.locAt = arena.locAt from funext fun i => by
    rw [DeviceArena.locAt, DeviceArena.locAt, directory]]

theorem widths (h : Aligned width chunks arena) {width' : DefinitionId → Nat}
    (same : ∀ chunk ∈ arena.chunks, width' chunk.definitionId = width chunk.definitionId) :
    Aligned width' chunks arena := by
  refine ⟨h.shaped, h.heads.trans ?_⟩
  simp only [DeviceArena.heads, List.map_map]
  apply List.map_congr_left
  intro chunk member
  simp only [Function.comp_apply, same chunk member]

/-- A row is pushed where the model inserted a device. -/
theorem inserted [F64 F] (h : Aligned width chunks arena) (consistent : arena.Consistent registry)
    {device : DeviceId} {definitionId : DefinitionId} {definition : DeviceDefinition F}
    {result : DeviceInsertResult}
    (model : DeviceArena.Inserted registry arena after device definitionId definition result)
    {y : τ} {side : χ} (shaped : Shaped side) (wide : stride side = width definitionId)
    (pushed : (result.createdChunk = true ∧ rows side = [y] ∧ next = chunks ++ [side]) ∨
      result.createdChunk = false ∧ ∃ old, chunks[result.chunkIndex]? = some old ∧
        rows side = rows old ++ [y] ∧ next = chunks.set result.chunkIndex side) :
    Aligned width next after ∧ rowOf next after device = some y ∧
      ∀ other, other ≠ device → rowOf next after other = rowOf chunks arena other := by
  obtain ⟨aligned, rowsAt⟩ : Aligned width next after ∧ ∀ l, (table next).rowAt l =
      if l = result.location.loc then some y else (table chunks).rowAt l := by
    rcases pushed with ⟨created, single, rfl⟩ | ⟨created, old, hold, grown, rfl⟩
    · have heads := model.heads
      rw [if_pos created] at heads
      refine ⟨⟨?_, ?_⟩, ?_⟩
      · intro chunk member
        rcases List.mem_append.mp member with member | member
        · exact h.shaped chunk member
        · rwa [List.mem_singleton.mp member]
      · rw [heads, List.map_append, List.map_append, h.heads, List.map_singleton, List.map_singleton,
          wide, ← SidecarChunk.length_rows, single]
        rfl
      · intro l
        rcases model.table with ⟨-, location, -⟩ | ⟨notCreated, -⟩
        · rw [location, ← h.length, table, table, List.map_append, List.map_singleton, single,
            ChunkTable.rowAt_newChunk, List.length_map]
        · simp [created] at notCreated
    · have heads := model.heads
      rw [if_neg (by simp [created])] at heads
      rcases model.table with ⟨notCreated, -⟩ | ⟨-, chunk, hc, defined, row, -⟩
      · simp [created] at notCreated
      obtain ⟨side', hside, -, strides, count⟩ := h.beside hc
      obtain rfl := Option.some.inj (hold.symm.trans hside)
      refine ⟨⟨?_, ?_⟩, ?_⟩
      · intro chunk member
        rcases List.mem_or_eq_of_mem_set member with member | rfl
        · exact h.shaped chunk member
        · exact shaped
      · rw [heads, List.map_set, List.map_set, h.heads, wide, ← SidecarChunk.length_rows, grown,
          List.length_append, SidecarChunk.length_rows, count, row]
        rfl
      · intro l
        have atOld : (table chunks)[result.chunkIndex]? = some (rows old) := by
          rw [table, List.getElem?_map, hold, Option.map_some]
        have pushed : table (chunks.set result.chunkIndex side) =
            (table chunks).pushRow result.chunkIndex y := by
          rw [ChunkTable.pushRow_eq_set atOld, table, List.map_set, grown]
          rfl
        rw [pushed, ChunkTable.rowAt_pushRow atOld, SidecarChunk.length_rows, count, ← row]
        rfl
  refine ⟨aligned, lookup_of_rowAt model.located (by rw [rowsAt, if_pos rfl]), ?_⟩
  intro other different
  exact consistent.indexes.sidecar_insert rowsAt model.vacant (model.stays other different)

/-- A row is overwritten. -/
theorem written (h : Aligned width chunks arena) (consistent : arena.Consistent registry)
    {device : DeviceId} {loc : Loc} (located : arena.locAt device.index = some loc)
    {old side : χ} {x y : τ} (hold : chunks[loc.1]? = some old) (read : (rows old)[loc.2]? = some x)
    (shaped : Shaped side) (strides : stride side = stride old)
    (set : rows side = (rows old).set loc.2 y) :
    Aligned width (chunks.set loc.1 side) arena ∧ ∀ other, rowOf (chunks.set loc.1 side) arena other =
      if other = device then some y else rowOf chunks arena other := by
  have count : rowCount side = rowCount old := by
    rw [← SidecarChunk.length_rows, ← SidecarChunk.length_rows, set, List.length_set]
  have atOld : (table chunks)[loc.1]? = some (rows old) := by
    rw [table, List.getElem?_map, hold, Option.map_some]
  have edited : table (chunks.set loc.1 side) = (table chunks).setRow loc y := by
    rw [ChunkTable.setRow_eq_set atOld, table, List.map_set, set]
    rfl
  refine ⟨⟨?_, ?_⟩, ?_⟩
  · intro chunk member
    rcases List.mem_or_eq_of_mem_set member with member | rfl
    · exact h.shaped chunk member
    · exact shaped
  · rw [List.map_set, strides, count, ← h.heads]
    apply set_of_getElem?
    rw [List.getElem?_map, hold, Option.map_some]
  · intro other
    have at' : (table chunks).rowAt loc = some x := ChunkTable.rowAt_eq_some.mpr ⟨_, atOld, read⟩
    rw [rowOf, edited, consistent.indexes.sidecar_overwrite located at', rowOf]
    simp only [NonZeroId.index_inj]

/-- The row of a removed device goes, and the others follow their devices. -/
theorem removed (h : Aligned width chunks arena) (consistent : arena.Consistent registry)
    {device : DeviceId} {loc : Loc} {chunk : DeviceChunk F} {result : DeviceRemoveResult}
    (located : arena.locAt device.index = some loc) (hc : arena.chunks[loc.1]? = some chunk)
    (model : DeviceArena.Removed registry arena after device loc chunk result) :
    ∃ next, removeRow chunks result = some next ∧ Aligned width next after ∧
      rowOf next after device = none ∧
      ∀ other, other ≠ device → rowOf next after other = rowOf chunks arena other := by
  obtain ⟨chunk', id, hc', hd, same, ok, inside⟩ := consistent.chunk_of_locAt located
  obtain rfl := Option.some.inj (hc.symm.trans hc')
  obtain rfl := NonZeroId.index_inj.mp same
  obtain ⟨side, hside, shaped, strides, count⟩ := h.beside hc
  obtain ⟨rest, run, shapedRest, rowsRest, strideRest⟩ :=
    SidecarChunk.removeRow_spec side loc.2 shaped (count ▸ inside)
  have countRest : rowCount rest = chunk.len - 1 := by
    rw [← SidecarChunk.length_rows, rowsRest, length_swapRemove, SidecarChunk.length_rows, count]
  have bound : loc.1 < chunks.length := (List.getElem?_eq_some_iff.mp hside).1
  obtain ⟨atChunk, atRow, -, relocation⟩ := model.result
  have occupied := ok.occupied
  let next := if chunk.len ≤ 1 then swapRemove chunks loc.1 else chunks.set loc.1 rest
  have removal : removeRow chunks result = some next := by
    unfold removeRow
    rw [atChunk, atRow]
    dsimp only
    rw [bind_of_eq_some hside, bind_of_eq_some run]
    rw [countRest, relocation, List.length_set, h.length]
    by_cases single : chunk.len ≤ 1
    · rw [if_neg (by omega)]
      simp only [single, true_and, next, if_true]
      by_cases last : loc.1 = arena.chunks.length - 1
      · rw [if_neg (by simpa using last)]
        dsimp only
        rw [if_pos last, last, ← h.length, swapRemove_last]
        rw [last, ← h.length] at bound
        congr 1
        apply List.ext_getElem?
        intro i
        rw [List.getElem?_dropLast, List.getElem?_dropLast, List.length_set]
        split
        · rw [List.getElem?_set_ne (by omega)]
        · rfl
      · rw [if_pos last]
        dsimp only
        rw [if_pos ⟨rfl, rfl⟩, swapRemove_set_self bound]
    · rw [if_pos (by omega)]
      simp only [next, single, if_false]
  have tables : table next = (table chunks).removeRow loc := by
    have atSide : (table chunks)[loc.1]? = some (rows side) := by
      rw [table, List.getElem?_map, hside, Option.map_some]
    rw [ChunkTable.removeRow_of_chunk atSide, SidecarChunk.length_rows, count, ← rowsRest]
    simp only [next]
    split
    · exact map_swapRemove _ _ _
    · rw [table, List.map_set]
      rfl
  have aligned : Aligned width next after := by
    refine ⟨?_, ?_⟩
    · intro chunk member
      simp only [next] at member
      split at member
      · exact h.shaped chunk (mem_of_mem_swapRemove member)
      · rcases List.mem_or_eq_of_mem_set member with member | rfl
        · exact h.shaped chunk member
        · exact shapedRest
    · rw [model.heads]
      simp only [next]
      split
      · rw [map_swapRemove, map_swapRemove, h.heads]
      · rw [List.map_set, List.map_set, h.heads, strideRest, strides, countRest]
  refine ⟨next, removal, aligned, ?_, ?_⟩
  · rw [rowOf, lookup, model.gone, Option.bind_none]
  · intro other different
    have at' : arena.table.rowAt loc = some (chunk.rowOf loc.2 id) :=
      DeviceArena.rowAt_table.mpr ⟨chunk, id, hc, hd, rfl⟩
    have inTable : arena.table[loc.1]? = some chunk.rows := by
      rw [DeviceArena.table, List.getElem?_map, hc, Option.map_some]
    rw [rowOf, tables]
    refine consistent.indexes.sidecar_remove h.shape inTable at'
      (fun same => different (NonZeroId.index_inj.mp same)) ?_
    rw [model.moved other different, DeviceArena.table, List.length_map, DeviceChunk.length_rows]

end Aligned

end Sidecar

end Hynergy
