import Hynergy.Network.ArenaInvariant

/-!
# Removing a device from the arena

The last row takes the place of the removed one, and the last chunk the place of a chunk
left empty; the directory and the hints follow both moves.
-/

namespace Hynergy

open Lib

variable {F : Type}

namespace DeviceArena

variable {registry : DefinitionRegistry F} {arena : DeviceArena F}

/-- Redirecting a chunk's devices writes their entries, each once, and no other. -/
theorem redirect_spec {c : Nat} (bound : c < maxDeviceChunks) (devices : List DeviceId) (row : Nat)
    (directory : List DeviceDirectoryEntry) (fits : row + devices.length ≤ deviceChunkCapacity)
    (inside : ∀ d ∈ devices, d.index < directory.length) (distinct : devices.Nodup) :
    ∃ next, redirect c row devices directory = some next ∧ next.length = directory.length ∧
      (∀ i, (∀ d ∈ devices, d.index ≠ i) → next[i]? = directory[i]?) ∧
      (∀ j d, devices[j]? = some d →
        next[d.index]?.bind DeviceDirectoryEntry.loc = some (c, row + j)) ∧
      ((∀ e ∈ directory, e.Loaded) → ∀ e ∈ next, e.Loaded) := by
  induction devices generalizing row directory with
  | nil => exact ⟨directory, rfl, rfl, fun _ _ => rfl, by simp, id⟩
  | cons device devices ih =>
    obtain ⟨fresh, distinct⟩ := List.nodup_cons.mp distinct
    rw [List.length_cons] at fits
    obtain ⟨locator, hl⟩ := DeviceLocator.new_isSome bound (show row < deviceChunkCapacity by omega)
    have here := inside device List.mem_cons_self
    obtain ⟨next, run, length, kept, moved, loaded⟩ := ih (row + 1)
      (directory.set device.index (.resident locator)) (by omega)
      (fun d member => by
        rw [List.length_set]
        exact inside d (List.mem_cons_of_mem _ member)) distinct
    refine ⟨next, ?_, by rw [length, List.length_set], ?_, ?_, ?_⟩
    · rw [redirect, hl]
      simp only [Option.bind_eq_bind, Option.bind_some, assign_of_lt here]
      exact run
    · intro i other
      rw [kept i fun d member => other d (List.mem_cons_of_mem _ member),
        List.getElem?_set_ne (other device List.mem_cons_self)]
    · intro j d read
      cases j with
      | zero =>
        obtain rfl : device = d := by simpa using read
        rw [kept device.index, List.getElem?_set_self here, Option.bind_some,
          DeviceDirectoryEntry.loc_resident hl, Nat.add_zero]
        rintro d member same
        exact fresh (NonZeroId.index_inj.mp same ▸ member)
      | succ j =>
        rw [List.getElem?_cons_succ] at read
        rw [moved j d read]
        congr 2
        omega
    · intro before
      refine loaded fun e member => ?_
      rcases List.mem_or_eq_of_mem_set member with old | rfl
      · exact before e old
      · exact DeviceDirectoryEntry.loaded_resident hl

/-- The device ids of a consistent chunk are distinct. -/
theorem Consistent.nodup_deviceIds (h : Consistent registry arena) {c : Nat}
    {chunk : DeviceChunk F} (hc : arena.chunks[c]? = some chunk) : chunk.deviceIds.Nodup := by
  rw [List.nodup_iff_getElem?_ne_getElem?]
  intro i j before inside same
  have at' : ∀ r d, chunk.deviceIds[r]? = some d →
      arena.table.rowAt (c, r) = some (chunk.rowOf r d) :=
    fun r d hd => rowAt_table.mpr ⟨chunk, d, hc, hd, rfl⟩
  have hi := List.getElem?_eq_getElem (show i < chunk.deviceIds.length by omega)
  have hj := same.symm.trans hi
  have := h.indexes.loc_unique (at' i _ hi) (at' j _ hj) rfl
  simp only [Prod.mk.injEq, true_and] at this
  omega

/-- The directory entry of a chunk's row leads back to it. -/
theorem Consistent.locAt_of_chunk (h : Consistent registry arena) {c r : Nat}
    {chunk : DeviceChunk F} {device : DeviceId} (hc : arena.chunks[c]? = some chunk)
    (hd : chunk.deviceIds[r]? = some device) : arena.locAt device.index = some (c, r) :=
  h.indexes.named (c, r) _ (rowAt_table.mpr ⟨chunk, device, hc, hd, rfl⟩)

/-- What removing the device at `loc` from a chunk of `rows` rows does to the arena. -/
structure Removed (registry : DefinitionRegistry F) (arena next : DeviceArena F)
    (device : DeviceId) (loc : Loc) (chunk : DeviceChunk F) (result : DeviceRemoveResult) :
    Prop where
  consistent : Consistent registry next
  directory : next.directory.length = arena.directory.length
  gone : next.locAt device.index = none
  removed : next.record device = none
  moved : ∀ other, other ≠ device → next.locAt other.index = (arena.locAt other.index).map
    (ChunkTable.relocate arena.chunks.length chunk.len loc)
  kept : ∀ other, other ≠ device → next.record other = arena.record other
  table : next.table = arena.table.removeRow loc
  chunks : ∃ rest, rest.definitionId = chunk.definitionId ∧ rest.len = chunk.len - 1 ∧
    next.chunks = if chunk.len ≤ 1 then swapRemove arena.chunks loc.1
      else arena.chunks.set loc.1 rest
  result : result.removedChunk = loc.1 ∧ result.removedRow = loc.2 ∧
    result.movedDevice = (if loc.2 ≠ chunk.len - 1 then chunk.deviceIds[chunk.len - 1]? else none) ∧
    result.chunkRelocation = if chunk.len ≤ 1 ∧ loc.1 ≠ arena.chunks.length - 1 then
      some ⟨arena.chunks.length - 1, loc.1⟩ else none

theorem Removed.heads {next : DeviceArena F} {device : DeviceId} {loc : Loc} {chunk : DeviceChunk F}
    {result : DeviceRemoveResult} (h : Removed registry arena next device loc chunk result) :
    next.heads = if chunk.len ≤ 1 then Lib.swapRemove arena.heads loc.1
      else arena.heads.set loc.1 (chunk.definitionId, chunk.len - 1) := by
  obtain ⟨rest, defined, len, chunks⟩ := h.chunks
  rw [DeviceArena.heads, chunks]
  split
  · exact map_swapRemove _ _ _
  · rw [List.map_set, defined, len]
    rfl

/-- The parts of a consistent arena a removal starts from. -/
structure Removal (arena : DeviceArena F) (device : DeviceId) (loc : Loc)
    (chunk rest : DeviceChunk F) (moved : Option DeviceId) : Prop where
  located : arena.locAt device.index = some loc
  inArena : arena.chunks[loc.1]? = some chunk
  inChunk : chunk.deviceIds[loc.2]? = some device
  inside : loc.2 < chunk.len
  run : chunk.removeRow loc.2 = some (moved, rest)
  shaped : rest.Shaped
  rows : rest.rows = swapRemove chunk.rows loc.2
  definition : rest.definitionId = chunk.definitionId
  counts : rest.terminalCount = chunk.terminalCount ∧ rest.parameterCount = chunk.parameterCount
  mover : moved = if loc.2 ≠ chunk.len - 1 then chunk.deviceIds[chunk.len - 1]? else none

/-- Chunk `c` is emptied and the last chunk takes its index: hints at the last chunk now name
`c`, and none names the emptied one. -/
theorem HintsOk.swapRemove {chunks : List (DeviceChunk F)} {active next : List (Option Nat)}
    (h : HintsOk chunks active) {c : Nat} (bound : c < chunks.length)
    (length : next.length = active.length)
    (entries : ∀ (k : Nat) (c' : Nat), next[k]? = some (some c') →
      (c' = c ∧ c ≠ chunks.length - 1 ∧ active[k]? = some (some (chunks.length - 1))) ∨
        c' ≠ c ∧ c' ≠ chunks.length - 1 ∧ active[k]? = some (some c')) :
    HintsOk (Lib.swapRemove chunks c) next := by
  constructor
  · intro k c' read
    rcases entries k c' read with ⟨rfl, different, before⟩ | ⟨other, kept, before⟩
    · obtain ⟨chunk, hc, rest⟩ := h.usable k _ before
      exact ⟨chunk, by rw [getElem?_swapRemove bound, if_pos (by omega), if_pos rfl, hc], rest⟩
    · obtain ⟨chunk, hc, rest⟩ := h.usable k c' before
      have := (List.getElem?_eq_some_iff.mp hc).1
      exact ⟨chunk, by rw [getElem?_swapRemove bound, if_pos (by omega), if_neg other, hc], rest⟩
  · intro chunk member
    rw [length]
    exact h.slots chunk (mem_of_mem_swapRemove member)

namespace Removal

variable {device : DeviceId} {loc : Loc} {chunk rest : DeviceChunk F} {moved : Option DeviceId}

theorem len (r : Removal arena device loc chunk rest moved) :
    rest.len = chunk.len - 1 := by
  have := congrArg List.length r.rows
  simpa using this

theorem bound (r : Removal arena device loc chunk rest moved) :
    loc.1 < arena.chunks.length := (List.getElem?_eq_some_iff.mp r.inArena).1

theorem of_locAt (h : Consistent registry arena) (located : arena.locAt device.index = some loc) :
    ∃ chunk rest moved, Removal arena device loc chunk rest moved := by
  obtain ⟨chunk, d, hc, hd, same, ok, inside⟩ := h.chunk_of_locAt located
  obtain rfl := NonZeroId.index_inj.mp same
  obtain ⟨moved, rest, run, shaped, rows, definition, ht, hp, hm⟩ :=
    DeviceChunk.removeRow_spec ok.shaped inside
  exact ⟨chunk, rest, moved, located, hc, hd, inside, run, shaped, rows, definition, ⟨ht, hp⟩, hm⟩

theorem tableChunk (r : Removal arena device loc chunk rest moved) :
    arena.table[loc.1]? = some chunk.rows := by
  rw [table, List.getElem?_map, r.inArena, Option.map_some]

theorem rowAt (r : Removal arena device loc chunk rest moved) :
    arena.table.rowAt loc = some (chunk.rowOf loc.2 device) :=
  rowAt_table.mpr ⟨chunk, device, r.inArena, r.inChunk, rfl⟩

/-- The chunk keeps rows: the directory and the table after the swap inside it. -/
theorem directory (h : Consistent registry arena)
    (r : Removal arena device loc chunk rest moved) :
    ∃ locator directory, arena.residentLocator device = some locator ∧
      locator.chunkIndex = loc.1 ∧ locator.row = loc.2 ∧
      pointMoved locator moved (arena.directory.set device.index .unassigned) = some directory ∧
      directory.length = arena.directory.length ∧
      directory[device.index]?.bind DeviceDirectoryEntry.loc = none ∧
      (∀ i, i ≠ device.index → directory[i]?.bind DeviceDirectoryEntry.loc =
        (arena.locAt i).map fun l => if l = (loc.1, chunk.len - 1) then loc else l) ∧
      ∀ e ∈ directory, e.Loaded := by
  obtain ⟨locator, found, h1, h2⟩ := residentLocator_of_locAt r.located
  have ok := h.chunks chunk (List.mem_of_getElem? r.inArena)
  have inside := index_lt_of_locAt r.located
  have packed := h.packed
  have bound := r.bound
  obtain ⟨locator', hl⟩ := DeviceLocator.new_isSome (show loc.1 < maxDeviceChunks by omega)
    (show loc.2 < deviceChunkCapacity from r.inside.trans_le ok.bounded)
  -- the stored entry is the one the location packs to
  have entry : (DeviceDirectoryEntry.resident locator).loc = some loc ∧
      (DeviceDirectoryEntry.resident locator).Loaded := by
    obtain ⟨entry, read, hr⟩ := Option.bind_eq_some_iff.mp found
    have loaded := h.loaded entry (List.mem_of_getElem? read)
    simp only [DeviceDirectoryEntry.residentLocator] at hr
    split at hr
    · simp at hr
    · rename_i used
      obtain rfl := Option.some.inj hr
      have same : (DeviceDirectoryEntry.resident ⟨entry.raw - 1⟩) = entry := by
        cases entry
        simp only [DeviceDirectoryEntry.resident] at *
        congr 1
        omega
      rw [same]
      refine ⟨?_, loaded⟩
      have located := r.located
      rwa [locAt, read, Option.bind_some] at located
  have cleared : ∀ i, i ≠ device.index →
      (arena.directory.set device.index .unassigned)[i]?.bind DeviceDirectoryEntry.loc =
        arena.locAt i := by
    intro i different
    rw [List.getElem?_set_ne (Ne.symm different), locAt]
  have loadedCleared : ∀ e ∈ arena.directory.set device.index .unassigned, e.Loaded := by
    intro e member
    rcases List.mem_or_eq_of_mem_set member with old | rfl
    · exact h.loaded e old
    · exact DeviceDirectoryEntry.loaded_unassigned
  have hereCleared : (arena.directory.set device.index .unassigned)[device.index]?.bind
      DeviceDirectoryEntry.loc = none := by
    rw [List.getElem?_set_self inside]
    rfl
  have lastLoc : ∀ i, arena.locAt i = some (loc.1, chunk.len - 1) →
      ∃ d, chunk.deviceIds[chunk.len - 1]? = some d ∧ d.index = i := by
    intro i at'
    obtain ⟨other, d, ho, hd, same, -, -⟩ := h.chunk_of_locAt at'
    obtain rfl := Option.some.inj (r.inArena.symm.trans ho)
    exact ⟨d, hd, same⟩
  by_cases last : loc.2 = chunk.len - 1
  · -- the last row itself is removed: nothing moves
    have still : moved = none := by rw [r.mover, if_neg (by simpa using last)]
    subst still
    refine ⟨locator, _, found, h1, h2, rfl, by rw [List.length_set], hereCleared, ?_,
      loadedCleared⟩
    intro i different
    rw [cleared i different]
    cases at' : arena.locAt i with
    | none => rfl
    | some l =>
      rw [Option.map_some, if_neg]
      rintro rfl
      obtain ⟨d, hd, same⟩ := lastLoc i at'
      rw [← last, r.inChunk] at hd
      exact different (by rw [← same, Option.some.inj hd])
  · obtain ⟨mover, hm⟩ : ∃ d, chunk.deviceIds[chunk.len - 1]? = some d :=
      ⟨_, List.getElem?_eq_getElem (show chunk.len - 1 < chunk.deviceIds.length by
        have := r.inside
        simp only [DeviceChunk.len] at *
        omega)⟩
    have moves : moved = some mover := by rw [r.mover, if_pos last, hm]
    subst moves
    have moverLoc := h.locAt_of_chunk r.inArena hm
    have moverInside := index_lt_of_locAt moverLoc
    have different : mover.index ≠ device.index := by
      intro same
      rw [same, r.located] at moverLoc
      exact last (congrArg Prod.snd (Option.some.inj moverLoc))
    refine ⟨locator, _, found, h1, h2, assign_of_lt (by rwa [List.length_set]) _,
      by rw [List.length_set, List.length_set], ?_, ?_, ?_⟩
    · rw [List.getElem?_set_ne different]
      exact hereCleared
    · intro i notDevice
      by_cases isMover : mover.index = i
      · subst isMover
        rw [List.getElem?_set_self (by rwa [List.length_set]), Option.bind_some, entry.1, moverLoc,
          Option.map_some, if_pos rfl]
      · rw [List.getElem?_set_ne isMover, cleared i notDevice]
        cases at' : arena.locAt i with
        | none => rfl
        | some l =>
          rw [Option.map_some, if_neg]
          rintro rfl
          obtain ⟨d, hd, same⟩ := lastLoc i at'
          obtain rfl := Option.some.inj (hm.symm.trans hd)
          exact isMover same
    · intro e member
      rcases List.mem_or_eq_of_mem_set member with old | rfl
      · exact loadedCleared e old
      · exact entry.2

theorem table_removeRow (r : Removal arena device loc chunk rest moved)
    (next : DeviceArena F)
    (chunks : next.chunks = if chunk.len ≤ 1 then swapRemove arena.chunks loc.1
      else arena.chunks.set loc.1 rest) : next.table = arena.table.removeRow loc := by
  rw [ChunkTable.removeRow_of_chunk r.tableChunk, table, chunks, DeviceChunk.length_rows]
  split
  · exact map_swapRemove _ _ _
  · rw [List.map_set, r.rows, table]

/-- Once the chunks, the directory and the hints are as they should, the arena is. -/
theorem finish (h : Consistent registry arena)
    (r : Removal arena device loc chunk rest moved) {next : DeviceArena F}
    (chunks : next.chunks = if chunk.len ≤ 1 then swapRemove arena.chunks loc.1
      else arena.chunks.set loc.1 rest)
    (length : next.directory.length = arena.directory.length)
    (gone : next.locAt device.index = none)
    (follows : ∀ i, i ≠ device.index → next.locAt i =
      (arena.locAt i).map (ChunkTable.relocate arena.chunks.length chunk.len loc))
    (loaded : ∀ e ∈ next.directory, e.Loaded)
    (hints : HintsOk next.chunks next.activeChunks) {result : DeviceRemoveResult}
    (removed : result.removedChunk = loc.1 ∧ result.removedRow = loc.2 ∧
      result.movedDevice = moved ∧
      result.chunkRelocation = if chunk.len ≤ 1 ∧ loc.1 ≠ arena.chunks.length - 1 then
        some ⟨arena.chunks.length - 1, loc.1⟩ else none) :
    Removed registry arena next device loc chunk result := by
  have table' := r.table_removeRow next chunks
  obtain ⟨indexes, missing, kept⟩ := h.indexes.remove r.tableChunk r.rowAt gone
    (by
      intro k different
      rw [DeviceChunk.length_rows, table, List.length_map]
      exact follows k different)
  rw [← table'] at indexes missing kept
  have ok := h.chunks chunk (List.mem_of_getElem? r.inArena)
  have chunksOk : ∀ c ∈ next.chunks, ChunkOk registry c := by
    intro c member
    rw [chunks] at member
    split at member
    · exact h.chunks c (mem_of_mem_swapRemove member)
    · rcases List.mem_or_eq_of_mem_set member with old | rfl
      · exact h.chunks c old
      · obtain ⟨definition, known, ht, hp⟩ := ok.definition
        have := ok.bounded
        exact ⟨r.shaped, by rw [r.len]; omega, by rw [r.len]; omega, definition,
          by rw [r.definition, known], r.counts.1.trans ht, r.counts.2.trans hp⟩
  refine ⟨⟨chunksOk, ?_, loaded, indexes, hints⟩, length, gone, missing, ?_, ?_, table',
    ⟨rest, r.definition, r.len, chunks⟩, ?_⟩
  · have := h.packed
    rw [chunks]
    split
    · rw [length_swapRemove]
      omega
    · rwa [List.length_set]
  · intro other different
    exact follows _ fun same => different (NonZeroId.index_inj.mp same)
  · intro other different
    exact kept _ fun same => different (NonZeroId.index_inj.mp same)
  · obtain ⟨h1, h2, h3, h4⟩ := removed
    exact ⟨h1, h2, h3.trans r.mover, h4⟩

end Removal

/-- A located device is removed; the row moved into its place and the chunk moved into an
emptied one are reported. -/
theorem remove_spec (h : Consistent registry arena) {device : DeviceId} {loc : Loc}
    (located : arena.locAt device.index = some loc) :
    ∃ chunk result next, arena.chunks[loc.1]? = some chunk ∧ loc.2 < chunk.len ∧
      remove device arena = .ok result next ∧ Removed registry arena next device loc chunk result := by
  obtain ⟨chunk, rest, moved, r⟩ := Removal.of_locAt h located
  obtain ⟨locator, directory, found, h1, h2, swapped, length, gone, follows, loaded⟩ := r.directory h
  have bound := r.bound
  have slot := h.hints.slots chunk (List.mem_of_getElem? r.inArena)
  have bounded := (h.chunks chunk (List.mem_of_getElem? r.inArena)).bounded
  have inside := r.inside
  have len := r.len
  have empty : rest.deviceIds ≠ [] ↔ ¬ chunk.len ≤ 1 := by
    rw [ne_eq, ← List.length_eq_zero_iff, show rest.deviceIds.length = rest.len from rfl, len]
    omega
  obtain ⟨locator', resident', h1', h2'⟩ := resident_of_locAt located
  obtain rfl : locator' = locator := by
    have := residentLocator_of_locAt located
    simp only [resident, Call.get_bind, found, Call.okOr_some, Outcome.ok.injEq, and_true] at resident'
    exact resident'.symm
  rw [remove, Call.bind_ok resident', Call.get_bind]
  dsimp only
  rw [h1, r.inArena, Call.expect_some_bind, h2, r.run, Call.expect_some_bind]
  dsimp only
  rw [swapped, Call.expect_some_bind]
  refine ⟨chunk, ?_⟩
  by_cases emptied : chunk.len ≤ 1
  · -- the chunk goes: its hint is cleared and the last chunk, if another, takes its index
    rw [if_neg (by rw [empty]; simpa using emptied), List.getElem?_eq_getElem slot,
      Call.expect_some_bind, List.length_set]
    have still : ∀ i, i ≠ device.index →
        directory[i]?.bind DeviceDirectoryEntry.loc = arena.locAt i := by
      intro i different
      rw [follows i different]
      cases arena.locAt i with
      | none => rfl
      | some l =>
        rw [Option.map_some]
        split
        · rename_i same
          rw [same]
          congr 1
          exact Prod.ext rfl (by dsimp only; omega)
        · rfl
    obtain ⟨cleared, hcleared, clearedLength, clearedEntries⟩ : ∃ cleared,
        (if arena.activeChunks[chunk.definitionId.index] = some loc.1 then
          arena.activeChunks.set chunk.definitionId.index none else arena.activeChunks) = cleared ∧
        cleared.length = arena.activeChunks.length ∧
        ∀ (k : Nat) (c' : Nat), cleared[k]? = some (some c') →
          c' ≠ loc.1 ∧ arena.activeChunks[k]? = some (some c') := by
      refine ⟨_, rfl, by split <;> simp, ?_⟩
      intro k c' read
      have named : arena.activeChunks[k]? = some (some loc.1) → k = chunk.definitionId.index := by
        intro before
        obtain ⟨other, ho, same, -⟩ := h.hints.usable k loc.1 before
        rw [← same, Option.some.inj (r.inArena.symm.trans ho)]
      split at read
      · rw [List.getElem?_set] at read
        split at read
        · simp at read
        · rename_i other
          refine ⟨?_, read⟩
          rintro rfl
          exact other (named read).symm
      · rename_i unhinted
        refine ⟨?_, read⟩
        rintro rfl
        obtain rfl := named read
        rw [List.getElem?_eq_getElem slot] at read
        exact unhinted (Option.some.inj read)
    rw [hcleared]
    have atLast : ∀ i, i ≠ device.index → ∀ l, arena.locAt i = some l → l.1 = loc.1 → False := by
      intro i different l at' same
      obtain ⟨other, d, ho, hd, named, -, inside'⟩ := h.chunk_of_locAt at'
      rw [same] at ho
      obtain rfl := Option.some.inj (r.inArena.symm.trans ho)
      rw [show l.2 = loc.2 by omega, r.inChunk] at hd
      exact different (by rw [← named, Option.some.inj hd])
    by_cases last : loc.1 = arena.chunks.length - 1
    · rw [if_pos last, Call.set_bind]
      have dropped : (arena.chunks.set loc.1 rest).dropLast = Lib.swapRemove arena.chunks loc.1 := by
        rw [← swapRemove_set_self bound rest, ← swapRemove_last, List.length_set, ← last]
      refine ⟨_, _, rfl, inside, rfl, r.finish h ?_ length ?_ ?_ loaded ?_ ⟨rfl, rfl, rfl, ?_⟩⟩
      · rw [if_pos emptied]
        exact dropped
      · exact gone
      · intro i different
        rw [locAt, still i different]
        cases at' : arena.locAt i with
        | none => rfl
        | some l =>
          rw [Option.map_some, ChunkTable.relocate, if_pos emptied, if_neg]
          exact fun same => atLast i different l at' (same.trans last.symm)
      · dsimp only
        rw [dropped]
        refine h.hints.swapRemove bound clearedLength fun k c' read => Or.inr ?_
        obtain ⟨other, before⟩ := clearedEntries k c' read
        exact ⟨other, last ▸ other, before⟩
      · rw [if_neg (fun both => both.2 last)]
    · rw [if_neg last]
      have lastBound : arena.chunks.length - 1 < arena.chunks.length := by omega
      obtain ⟨final, hf⟩ : ∃ final, arena.chunks[arena.chunks.length - 1]? = some final :=
        ⟨_, List.getElem?_eq_getElem lastBound⟩
      have finalOk := h.chunks final (List.mem_of_getElem? hf)
      have finalSlot := h.hints.slots final (List.mem_of_getElem? hf)
      have packed := h.packed
      obtain ⟨redirected, run, length', kept, moves, loaded'⟩ := redirect_spec
        (show loc.1 < maxDeviceChunks by omega) final.deviceIds 0 directory
        (by have := finalOk.bounded; simp only [DeviceChunk.len] at this; omega)
        (fun d member => by
          obtain ⟨r', hr'⟩ := List.mem_iff_getElem?.mp member
          rw [length]
          exact index_lt_of_locAt (h.locAt_of_chunk hf hr'))
        (h.nodup_deviceIds hf)
      have notDevice : ∀ d ∈ final.deviceIds, d.index ≠ device.index := by
        intro d member same
        obtain ⟨r', hr'⟩ := List.mem_iff_getElem?.mp member
        have at' := h.locAt_of_chunk hf hr'
        rw [same, located] at at'
        exact last (congrArg Prod.fst (Option.some.inj at'))
      rw [List.getElem?_set_ne last, hf, Call.expect_some_bind, run, Call.expect_some_bind,
        List.getElem?_eq_getElem (by rwa [clearedLength]), Call.expect_some_bind, Call.set_bind]
      refine ⟨_, _, rfl, inside, rfl, r.finish h ?_ (length'.trans length) ?_ ?_ (loaded' loaded) ?_
        ⟨rfl, rfl, rfl, ?_⟩⟩
      · rw [if_pos emptied]
        exact swapRemove_set_self bound rest
      · rw [locAt, kept device.index notDevice]
        exact gone
      · intro i different
        rw [locAt]
        by_cases inFinal : ∃ d ∈ final.deviceIds, d.index = i
        · obtain ⟨d, member, rfl⟩ := inFinal
          obtain ⟨j, hj⟩ := List.mem_iff_getElem?.mp member
          rw [moves j d hj, h.locAt_of_chunk hf hj, Option.map_some, ChunkTable.relocate,
            if_pos emptied, if_pos rfl, Nat.zero_add]
        · rw [kept i fun d member same => inFinal ⟨d, member, same⟩, still i different]
          cases at' : arena.locAt i with
          | none => rfl
          | some l =>
            rw [Option.map_some, ChunkTable.relocate, if_pos emptied, if_neg]
            intro same
            obtain ⟨other, d, ho, hd, named, -, -⟩ := h.chunk_of_locAt at'
            rw [same] at ho
            obtain rfl := Option.some.inj (hf.symm.trans ho)
            exact inFinal ⟨d, List.mem_of_getElem? hd, named⟩
      · dsimp only
        rw [swapRemove_set_self bound]
        refine h.hints.swapRemove bound (by split <;> simp [clearedLength]) fun k c' read => ?_
        have named : cleared[k]? = some (some (arena.chunks.length - 1)) →
            k = final.definitionId.index := by
          intro before
          obtain ⟨other, ho, same, -⟩ := h.hints.usable k _ (clearedEntries k _ before).2
          rw [← same, Option.some.inj (hf.symm.trans ho)]
        have unmoved : cleared[k]? = some (some c') → c' ≠ arena.chunks.length - 1 →
            c' ≠ loc.1 ∧ c' ≠ arena.chunks.length - 1 ∧ arena.activeChunks[k]? = some (some c') :=
          fun before other => ⟨(clearedEntries k c' before).1, other, (clearedEntries k c' before).2⟩
        split at read
        · rename_i hinted
          rw [List.getElem?_set] at read
          split at read
          · rename_i here
            rw [if_pos (by rwa [clearedLength])] at read
            obtain rfl := Option.some.inj (Option.some.inj read)
            refine Or.inl ⟨rfl, last, ?_⟩
            rw [← here]
            refine (clearedEntries _ _ ?_).2
            rw [List.getElem?_eq_getElem (by rwa [clearedLength]), hinted]
          · rename_i other
            refine Or.inr (unmoved read ?_)
            rintro rfl
            exact other (named read).symm
        · rename_i unhinted
          refine Or.inr (unmoved read ?_)
          rintro rfl
          obtain rfl := named read
          rw [List.getElem?_eq_getElem (by rwa [clearedLength])] at read
          exact unhinted (Option.some.inj read)
      · rw [if_pos ⟨emptied, last⟩]
  · -- rows remain: the chunk has room now and becomes the hint
    rw [if_pos (empty.mpr emptied), assign_of_lt slot, Call.expect_some_bind, Call.set_bind]
    refine ⟨_, _, rfl, inside, rfl, r.finish h ?_ length ?_ ?_ loaded ?_ ⟨rfl, rfl, rfl, ?_⟩⟩
    · rw [if_neg emptied]
    · exact gone
    · intro i different
      rw [locAt, follows i different]
      congr 1
      funext l
      simp only [ChunkTable.relocate, if_neg emptied, Prod.ext_iff]
    · exact h.hints.replace r.inArena r.definition (by
        rintro c' ⟨⟩
        exact ⟨rfl, by omega⟩)
    · rw [if_neg (fun both => emptied both.1)]

end DeviceArena

end Hynergy
