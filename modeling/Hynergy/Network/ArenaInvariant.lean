import Hynergy.Lib.Directory
import Hynergy.Model.Registry
import Hynergy.Network.DeviceArena

/-!
# The arena's invariant

Read as a table of rows with the directory as its index, the arena stays consistent under
every insertion and removal, and each of them leaves the record of every other device alone.
-/

namespace Hynergy

open Lib

variable {F : Type}

namespace DeviceArena

variable {registry : DefinitionRegistry F} {arena : DeviceArena F}

def table (self : DeviceArena F) : ChunkTable (DeviceRow F) := self.chunks.map DeviceChunk.rows

/-- The location a directory index names. -/
def locAt (self : DeviceArena F) (index : Nat) : Option Loc :=
  self.directory[index]?.bind DeviceDirectoryEntry.loc

abbrev key (row : DeviceRow F) : Nat := row.device.index

/-- The row of a device. -/
def record (self : DeviceArena F) (device : DeviceId) : Option (DeviceRow F) :=
  lookup self.table self.locAt device.index

/-- Each chunk's definition and number of rows. -/
def heads (self : DeviceArena F) : List (DefinitionId × Nat) :=
  self.chunks.map fun chunk => (chunk.definitionId, chunk.len)

theorem getElem?_heads {c : Nat} {chunk : DeviceChunk F} (hc : arena.chunks[c]? = some chunk) :
    arena.heads[c]? = some (chunk.definitionId, chunk.len) := by
  rw [heads, List.getElem?_map, hc, Option.map_some]

/-- A chunk of one registered definition with 1 to 64 rows. -/
structure ChunkOk (registry : DefinitionRegistry F) (chunk : DeviceChunk F) : Prop where
  shaped : chunk.Shaped
  occupied : 0 < chunk.len
  bounded : chunk.len ≤ deviceChunkCapacity
  definition : ∃ definition, registry.get chunk.definitionId = some definition ∧
    chunk.terminalCount = definition.terminals.length ∧
    chunk.parameterCount = definition.parameters.length

/-- Every hint names a chunk of its definition with room, and every chunk's definition has one. -/
structure HintsOk (chunks : List (DeviceChunk F)) (activeChunks : List (Option Nat)) : Prop where
  usable : ∀ (definition : Nat) (c : Nat), activeChunks[definition]? = some (some c) →
    ∃ chunk, chunks[c]? = some chunk ∧ chunk.definitionId.index = definition ∧
      chunk.len < deviceChunkCapacity
  slots : ∀ chunk ∈ chunks, chunk.definitionId.index < activeChunks.length

structure Consistent (registry : DefinitionRegistry F) (arena : DeviceArena F) : Prop where
  chunks : ∀ chunk ∈ arena.chunks, ChunkOk registry chunk
  packed : arena.chunks.length ≤ maxDeviceChunks
  loaded : ∀ entry ∈ arena.directory, entry.Loaded
  indexes : Indexes key arena.table arena.locAt
  hints : HintsOk arena.chunks arena.activeChunks

/-! ### Reading the directory -/

theorem residentLocator_of_locAt {device : DeviceId} {loc : Loc}
    (h : arena.locAt device.index = some loc) :
    ∃ locator, arena.residentLocator device = some locator ∧ locator.chunkIndex = loc.1 ∧
      locator.row = loc.2 := by
  obtain ⟨entry, read, hl⟩ := Option.bind_eq_some_iff.mp h
  obtain ⟨locator, hr, rfl⟩ := Option.map_eq_some_iff.mp hl
  exact ⟨locator, by rw [residentLocator, read, Option.bind_some, hr], rfl, rfl⟩

theorem locAt_of_residentLocator {device : DeviceId} {locator : DeviceLocator}
    (h : arena.residentLocator device = some locator) :
    arena.locAt device.index = some (locator.chunkIndex, locator.row) := by
  obtain ⟨entry, read, hr⟩ := Option.bind_eq_some_iff.mp h
  rw [locAt, read, Option.bind_some, DeviceDirectoryEntry.loc, hr, Option.map_some]

theorem residentLocator_eq_none {device : DeviceId} :
    arena.residentLocator device = none ↔ arena.locAt device.index = none := by
  constructor
  · intro missing
    cases found : arena.locAt device.index with
    | none => rfl
    | some loc =>
      obtain ⟨locator, hl, -⟩ := residentLocator_of_locAt found
      rw [missing] at hl
      simp at hl
  · intro missing
    cases found : arena.residentLocator device with
    | none => rfl
    | some locator =>
      rw [locAt_of_residentLocator found] at missing
      simp at missing

theorem index_lt_of_locAt {i : Nat} {loc : Loc} (h : arena.locAt i = some loc) :
    i < arena.directory.length := by
  obtain ⟨entry, read, -⟩ := Option.bind_eq_some_iff.mp h
  exact (List.getElem?_eq_some_iff.mp read).1

/-- `resident(device)?`: the locator, or the error every reader of an absent device returns. -/
theorem resident_of_locAt {device : DeviceId} {loc : Loc}
    (h : arena.locAt device.index = some loc) :
    ∃ locator, resident device arena = .ok locator arena ∧ locator.chunkIndex = loc.1 ∧
      locator.row = loc.2 := by
  obtain ⟨locator, found, hc, hr⟩ := residentLocator_of_locAt h
  exact ⟨locator, by simp [resident, found], hc, hr⟩

theorem resident_of_absent {device : DeviceId} (h : arena.locAt device.index = none) :
    resident device arena = .err (.idNotAssigned .device device.get) arena := by
  simp [resident, residentLocator_eq_none.mpr h]

theorem rowAt_table {loc : Loc} {row : DeviceRow F} :
    arena.table.rowAt loc = some row ↔ ∃ chunk device, arena.chunks[loc.1]? = some chunk ∧
      chunk.deviceIds[loc.2]? = some device ∧ row = chunk.rowOf loc.2 device := by
  simp only [ChunkTable.rowAt_eq_some, table, List.getElem?_map, Option.map_eq_some_iff]
  constructor
  · rintro ⟨_, ⟨chunk, hc, rfl⟩, hr⟩
    rw [DeviceChunk.getElem?_rows] at hr
    obtain ⟨device, hd, rfl⟩ := Option.map_eq_some_iff.mp hr
    exact ⟨chunk, device, hc, hd, rfl⟩
  · rintro ⟨chunk, device, hc, hd, rfl⟩
    exact ⟨_, ⟨chunk, hc, rfl⟩, by rw [DeviceChunk.getElem?_rows, hd, Option.map_some]⟩

/-- The chunk and the device id a located index leads to. -/
theorem Consistent.chunk_of_locAt (h : Consistent registry arena) {i : Nat} {loc : Loc}
    (located : arena.locAt i = some loc) :
    ∃ chunk device, arena.chunks[loc.1]? = some chunk ∧ chunk.deviceIds[loc.2]? = some device ∧
      device.index = i ∧ ChunkOk registry chunk ∧ loc.2 < chunk.len := by
  obtain ⟨row, found, same⟩ := h.indexes.located i loc located
  obtain ⟨chunk, device, hc, hd, rfl⟩ := rowAt_table.mp found
  exact ⟨chunk, device, hc, hd, same, h.chunks chunk (List.mem_of_getElem? hc),
    (List.getElem?_eq_some_iff.mp hd).1⟩

theorem Consistent.isAssigned_iff (h : Consistent registry arena) {device : DeviceId} :
    arena.isAssigned device = true ↔ arena.locAt device.index ≠ none := by
  rw [isAssigned, locAt]
  cases read : arena.directory[device.index]? with
  | none => simp
  | some entry =>
    have loaded := h.loaded entry (List.mem_of_getElem? read)
    simp only [Option.any_some, Option.bind_some, Bool.not_eq_true']
    rw [← Bool.not_eq_true, DeviceDirectoryEntry.isUnassigned_iff loaded]

theorem Consistent.record_eq_some (h : Consistent registry arena) {device : DeviceId}
    {row : DeviceRow F} :
    arena.record device = some row ↔
      ∃ loc, arena.locAt device.index = some loc ∧ arena.table.rowAt loc = some row ∧
        row.device = device := by
  rw [record, h.indexes.lookup_eq_some]
  simp only [key, NonZeroId.index_inj]

theorem Consistent.record_eq_none (h : Consistent registry arena) {device : DeviceId} :
    arena.record device = none ↔ arena.locAt device.index = none := h.indexes.lookup_eq_none

/-- `self.device(device)`: the view of the device's row, or not assigned. -/
theorem Consistent.device_spec [F64 F] (h : Consistent registry arena) (id : DeviceId) :
    (∃ row, arena.record id = some row ∧ row.device = id ∧ DeviceArena.device id arena =
      .ok ⟨row.definitionId, row.terminals, row.parameters.map decodeParameter⟩ arena) ∨
    arena.record id = none ∧
      DeviceArena.device id arena = .err (.idNotAssigned .device id.get) arena := by
  cases located : arena.locAt id.index with
  | none =>
    refine Or.inr ⟨h.record_eq_none.mpr located, ?_⟩
    exact Call.bind_err (resident_of_absent located)
  | some loc =>
    obtain ⟨chunk, device, hc, hd, same, -, -⟩ := h.chunk_of_locAt located
    obtain rfl := NonZeroId.index_inj.mp same
    obtain ⟨locator, found, h1, h2⟩ := resident_of_locAt located
    refine Or.inl ⟨chunk.rowOf loc.2 device, ?_, rfl, ?_⟩
    · exact h.record_eq_some.mpr ⟨loc, located, rowAt_table.mpr ⟨chunk, device, hc, hd, rfl⟩, rfl⟩
    · rw [DeviceArena.device, Call.bind_ok found, Call.get_bind, h1, hc, Call.expect_some_bind, h2]
      rfl

/-! ### Hints -/

namespace HintsOk

variable {chunks : List (DeviceChunk F)} {active : List (Option Nat)}

theorem clear (h : HintsOk chunks active) (k : Nat) : HintsOk chunks (active.set k none) := by
  refine ⟨?_, fun chunk member => by simpa using h.slots chunk member⟩
  intro definition c read
  rw [List.getElem?_set] at read
  split at read
  · split at read <;> simp at read
  · exact h.usable definition c read

theorem set (h : HintsOk chunks active) {k c : Nat} {chunk : DeviceChunk F}
    (hc : chunks[c]? = some chunk) (same : chunk.definitionId.index = k)
    (room : chunk.len < deviceChunkCapacity) : HintsOk chunks (active.set k (some c)) := by
  refine ⟨?_, fun chunk member => by simpa using h.slots chunk member⟩
  intro definition c' read
  rw [List.getElem?_set] at read
  split at read
  · rename_i here
    split at read
    · obtain rfl := Option.some.inj (Option.some.inj read)
      exact ⟨chunk, hc, same.trans here, room⟩
    · simp at read
  · exact h.usable definition c' read

theorem extend (h : HintsOk chunks active) (n : Nat) :
    HintsOk chunks (active ++ List.replicate n none) := by
  refine ⟨?_, fun chunk member => ?_⟩
  · intro definition c read
    rw [List.getElem?_append] at read
    split at read
    · exact h.usable definition c read
    · rw [List.getElem?_replicate] at read
      split at read <;> simp at read
  · have := h.slots chunk member
    rw [List.length_append]
    omega

/-- Chunk `c` changes; the hints of its definition are the caller's to restore. -/
theorem replace (h : HintsOk chunks active) {c : Nat} {old new : DeviceChunk F}
    (hc : chunks[c]? = some old) (same : new.definitionId = old.definitionId)
    {hint : Option Nat} (fits : ∀ c', hint = some c' → c' = c ∧ new.len < deviceChunkCapacity) :
    HintsOk (chunks.set c new) (active.set old.definitionId.index hint) := by
  have bound : c < chunks.length := (List.getElem?_eq_some_iff.mp hc).1
  constructor
  · intro definition c' read
    rw [List.getElem?_set] at read
    split at read
    · rename_i here
      split at read
      · obtain ⟨rfl, room⟩ := fits c' (Option.some.inj read)
        exact ⟨new, by rw [List.getElem?_set_self bound], by rw [same, here], room⟩
      · simp at read
    · rename_i other
      obtain ⟨chunk, hc', hd, room⟩ := h.usable definition c' read
      have different : c ≠ c' := by
        rintro rfl
        obtain rfl := Option.some.inj (hc.symm.trans hc')
        exact other hd
      exact ⟨chunk, by rw [List.getElem?_set_ne different, hc'], hd, room⟩
  · intro chunk member
    rw [List.length_set]
    rcases List.mem_or_eq_of_mem_set member with old' | rfl
    · exact h.slots chunk old'
    · rw [same]
      exact h.slots old (List.mem_of_getElem? hc)

end HintsOk

/-- Choosing a chunk only touches the hints. The chunk found has room; where none is found,
every chunk of the definition is full and the hints have at most grown by empty slots. -/
theorem insertionChunk_spec (hints : HintsOk arena.chunks arena.activeChunks)
    (bounded : ∀ chunk ∈ arena.chunks, chunk.len ≤ deviceChunkCapacity)
    (definition : DefinitionId) :
    ∃ found active, arena.insertionChunk definition = (found, { arena with activeChunks := active }) ∧
      HintsOk arena.chunks active ∧ definition.index < active.length ∧
      (∀ c, found = some c → ∃ chunk, arena.chunks[c]? = some chunk ∧
        chunk.definitionId = definition ∧ chunk.len < deviceChunkCapacity) ∧
      (found = none → (∃ n, active = arena.activeChunks ++ List.replicate n none) ∧
        ∀ chunk ∈ arena.chunks, chunk.definitionId = definition → chunk.len = deviceChunkCapacity) := by
  obtain ⟨n, grown, long⟩ : ∃ n, arena.ensureActiveSlot definition =
      { arena with activeChunks := arena.activeChunks ++ List.replicate n none } ∧
      definition.index < (arena.activeChunks ++ List.replicate n none).length := by
    unfold ensureActiveSlot
    split
    · refine ⟨_, rfl, ?_⟩
      rw [List.length_append, List.length_replicate]
      omega
    · refine ⟨0, by simp, by simp; omega⟩
  have grownHints := hints.extend n
  have room : ∀ chunk ∈ arena.chunks, hasRoom definition chunk = true ↔
      chunk.definitionId = definition ∧ chunk.len < deviceChunkCapacity := by
    intro chunk member
    have := bounded chunk member
    simp only [hasRoom, Bool.and_eq_true, decide_eq_true_eq, Bool.not_eq_true',
      ← Bool.not_eq_true, DeviceChunk.isFull_iff]
    simp only [deviceChunkCapacity] at *
    constructor
    · rintro ⟨same, open'⟩
      exact ⟨same, by omega⟩
    · rintro ⟨same, open'⟩
      exact ⟨same, by omega⟩
  unfold insertionChunk
  rw [grown]
  dsimp only [hint]
  cases read : (arena.activeChunks ++ List.replicate n none)[definition.index]?.join with
  | some index =>
    obtain ⟨chunk, hc, same, open'⟩ := grownHints.usable definition.index index
      (Option.join_eq_some_iff.mp read)
    have usable := (room chunk (List.mem_of_getElem? hc)).mpr ⟨NonZeroId.index_inj.mp same, open'⟩
    dsimp only
    rw [hc, Option.any_some, if_pos usable]
    refine ⟨_, _, rfl, grownHints, long, ?_, by simp⟩
    rintro c rfl'
    obtain rfl := Option.some.inj rfl'
    exact ⟨chunk, hc, NonZeroId.index_inj.mp same, open'⟩
  | none =>
    dsimp only [findChunk]
    cases search : arena.chunks.findIdx? (hasRoom definition) with
    | some index =>
      obtain ⟨inside, holds, -⟩ := List.findIdx?_eq_some_iff_getElem.mp search
      have hc := List.getElem?_eq_getElem inside
      obtain ⟨same, open'⟩ := (room _ (List.getElem_mem inside)).mp holds
      refine ⟨some index, _, rfl, grownHints.set hc (by rw [same]) open', ?_, ?_, by simp⟩
      · rw [List.length_set]
        exact long
      · rintro c rfl'
        obtain rfl := Option.some.inj rfl'
        exact ⟨_, hc, same, open'⟩
    | none =>
      refine ⟨none, _, rfl, grownHints, long, by simp, fun _ => ⟨⟨n, rfl⟩, ?_⟩⟩
      intro chunk member same
      have full := List.findIdx?_eq_none_iff.mp search chunk member
      have := bounded chunk member
      rcases Nat.lt_or_ge chunk.len deviceChunkCapacity with open' | full'
      · rw [(room chunk member).mpr ⟨same, open'⟩] at full
        simp at full
      · omega

/-! ### Insertion -/

/-- A prepared insertion fits the arena. -/
structure Prepared (registry : DefinitionRegistry F) (arena : DeviceArena F)
    (prepared : PreparedDeviceInsert F) : Prop where
  slot : prepared.definitionId.index < arena.activeChunks.length
  place : (prepared.createdChunk = false ∧ ∃ chunk,
      arena.chunks[prepared.location.chunkIndex]? = some chunk ∧
      chunk.definitionId = prepared.definitionId ∧ chunk.len = prepared.location.row ∧
      chunk.len < deviceChunkCapacity) ∨
    prepared.createdChunk = true ∧ prepared.location = ⟨arena.chunks.length, 0⟩ ∧
      arena.chunks.length < maxDeviceChunks ∧ ∃ definition,
      registry.get prepared.definitionId = some definition ∧
      prepared.newChunk = some (.new prepared.definitionId definition)

theorem Consistent.withHints (h : Consistent registry arena) {active : List (Option Nat)}
    (hints : HintsOk arena.chunks active) :
    Consistent registry { arena with activeChunks := active } :=
  ⟨h.chunks, h.packed, h.loaded, h.indexes, hints⟩

theorem prepareInsert_spec (h : Consistent registry arena) (id : DeviceId)
    {definitionId : DefinitionId} {definition : DeviceDefinition F}
    (known : registry.get definitionId = some definition) :
    ∃ active, Consistent registry { arena with activeChunks := active } ∧
      ((∃ prepared, prepareInsert id definitionId definition arena =
          .ok prepared { arena with activeChunks := active } ∧ prepared.device = id ∧
          prepared.definitionId = definitionId ∧
          Prepared registry { arena with activeChunks := active } prepared) ∨
        (prepareInsert id definitionId definition arena =
          .err .deviceArenaExhausted { arena with activeChunks := active } ∧
          arena.chunks.length = maxDeviceChunks ∧
          (∀ chunk ∈ arena.chunks, chunk.definitionId = definitionId →
            chunk.len = deviceChunkCapacity) ∧
          ∃ n, active = arena.activeChunks ++ List.replicate n none)) := by
  obtain ⟨found, active, chosen, hints, slot, some', none'⟩ := insertionChunk_spec h.hints
    (fun chunk member => (h.chunks chunk member).bounded) definitionId
  refine ⟨active, h.withHints hints, ?_⟩
  rw [prepareInsert, Call.get_bind, chosen]
  dsimp only
  rw [Call.set_bind]
  cases found with
  | some c =>
    obtain ⟨chunk, hc, same, room⟩ := some' c rfl
    have bound : c < maxDeviceChunks := by
      have := (List.getElem?_eq_some_iff.mp hc).1
      have := h.packed
      omega
    obtain ⟨locator, hl⟩ := DeviceLocator.new_isSome bound room
    obtain ⟨h1, h2⟩ := DeviceLocator.decode_new hl
    dsimp only
    rw [hc, Call.expect_some_bind, hl, Call.expect_some_bind]
    refine Or.inl ⟨_, rfl, rfl, rfl, slot, Or.inl ⟨rfl, chunk, ?_, same, ?_, room⟩⟩
    · simpa [DeviceLocation.ofLocator, h1] using hc
    · simp [DeviceLocation.ofLocator, h2]
  | none =>
    obtain ⟨grown, full⟩ := none' rfl
    dsimp only
    by_cases exhausted : arena.chunks.length ≥ maxDeviceChunks
    · rw [Call.rejectIf_bind_pos exhausted]
      have := h.packed
      exact Or.inr ⟨rfl, by omega, full, grown⟩
    · rw [Call.rejectIf_bind_neg exhausted]
      obtain ⟨locator, hl⟩ := DeviceLocator.new_isSome
        (show arena.chunks.length < maxDeviceChunks by omega) (show 0 < deviceChunkCapacity by decide)
      obtain ⟨h1, h2⟩ := DeviceLocator.decode_new hl
      rw [hl, Call.expect_some_bind]
      refine Or.inl ⟨_, rfl, rfl, rfl, slot, Or.inr ⟨rfl, ?_, by simpa using exhausted, definition,
        known, rfl⟩⟩
      simp [DeviceLocation.ofLocator, h1, h2]

/-- The row a device starts with. -/
def newRow [F64 F] (device : DeviceId) (definitionId : DefinitionId)
    (definition : DeviceDefinition F) : DeviceRow F where
  device := device
  definitionId := definitionId
  terminals := List.replicate definition.terminals.length none
  parameters := List.replicate definition.parameters.length unassignedParameter

/-- What inserting `device` does to the arena. -/
structure Inserted [F64 F] (registry : DefinitionRegistry F) (arena next : DeviceArena F)
    (device : DeviceId) (definitionId : DefinitionId) (definition : DeviceDefinition F)
    (result : DeviceInsertResult) : Prop where
  consistent : Consistent registry next
  directory : next.directory.length = max arena.directory.length (device.index + 1)
  located : next.locAt device.index = some result.location.loc
  added : next.record device = some (newRow device definitionId definition)
  stays : ∀ other, other ≠ device → next.locAt other.index = arena.locAt other.index
  kept : ∀ other, other ≠ device → next.record other = arena.record other
  table : (result.createdChunk = true ∧ result.location.loc = (arena.chunks.length, 0) ∧
      next.table = arena.table ++ [[newRow device definitionId definition]]) ∨
    result.createdChunk = false ∧ ∃ chunk, arena.chunks[result.chunkIndex]? = some chunk ∧
      chunk.definitionId = definitionId ∧ result.row = chunk.len ∧
      next.table = arena.table.pushRow result.chunkIndex (newRow device definitionId definition)
  heads : next.heads = if result.createdChunk then arena.heads ++ [(definitionId, 1)]
    else arena.heads.set result.chunkIndex (definitionId, result.row + 1)

/-- The row a device is inserted at was not there. -/
theorem Inserted.vacant [F64 F] {next : DeviceArena F} {device : DeviceId} {definitionId : DefinitionId}
    {definition : DeviceDefinition F} {result : DeviceInsertResult}
    (h : Inserted registry arena next device definitionId definition result) :
    arena.table.rowAt result.location.loc = none := by
  rw [ChunkTable.rowAt, DeviceArena.table, List.getElem?_map]
  rcases h.table with ⟨-, location, -⟩ | ⟨-, chunk, hc, -, row, -⟩
  · rw [location, List.getElem?_eq_none (Nat.le_refl _)]
    rfl
  · rw [show result.location.loc = (result.chunkIndex, result.row) from rfl, hc, Option.map_some,
      Option.bind_some, row, List.getElem?_eq_none]
    rw [DeviceChunk.length_rows]

theorem commitInsert_spec [F64 F] {ε : Type} (h : Consistent registry arena)
    {prepared : PreparedDeviceInsert F} (ready : Prepared registry arena prepared)
    {definition : DeviceDefinition F} (known : registry.get prepared.definitionId = some definition)
    (bound : prepared.device.index ≤ arena.directory.length)
    (free : arena.locAt prepared.device.index = none) :
    ∃ result next, (commitInsert prepared arena : Outcome _ ε _) = .ok result next ∧
      Inserted registry arena next prepared.device prepared.definitionId definition result ∧
      result.location = prepared.location ∧ result.createdChunk = prepared.createdChunk := by
  -- the chunks the row is pushed into, and the chunk in them
  obtain ⟨chunks, chunk, opened, hc, defined, len, room, ok, others, packed, place⟩ :
      ∃ chunks chunk,
        (if prepared.createdChunk then prepared.newChunk.map fun chunk => arena.chunks ++ [chunk]
          else some arena.chunks) = some chunks ∧
        chunks[prepared.location.chunkIndex]? = some chunk ∧
        chunk.definitionId = prepared.definitionId ∧ chunk.len = prepared.location.row ∧
        chunk.len < deviceChunkCapacity ∧
        (chunk.Shaped ∧ chunk.terminalCount = definition.terminals.length ∧
          chunk.parameterCount = definition.parameters.length) ∧
        (∀ i, i ≠ prepared.location.chunkIndex → chunks[i]? = arena.chunks[i]?) ∧
        chunks.length ≤ maxDeviceChunks ∧
        ((prepared.createdChunk = false ∧ chunks = arena.chunks) ∨
          prepared.createdChunk = true ∧ prepared.location = ⟨arena.chunks.length, 0⟩ ∧
            chunks = arena.chunks ++ [chunk] ∧ chunk.rows = []) := by
    rcases ready.place with ⟨created, chunk, hc, defined, len, room⟩ |
      ⟨created, location, unpacked, definition', known', newChunk⟩
    · have ok := h.chunks chunk (List.mem_of_getElem? hc)
      obtain ⟨definition', known', ht, hp⟩ := ok.definition
      rw [defined, known] at known'
      obtain rfl := Option.some.inj known'
      refine ⟨arena.chunks, chunk, ?_, hc, defined, len, room, ⟨ok.shaped, ht, hp⟩,
        fun _ _ => rfl, h.packed, Or.inl ⟨created, rfl⟩⟩
      rw [created]
      rfl
    · rw [known] at known'
      obtain rfl := Option.some.inj known'
      refine ⟨_, .new prepared.definitionId definition, ?_, ?_, rfl, ?_, ?_,
        ⟨DeviceChunk.shaped_new _ _, rfl, rfl⟩, ?_, ?_, Or.inr ⟨created, location, rfl, rfl⟩⟩
      · rw [if_pos created, newChunk]
        rfl
      · rw [location]
        simp
      · rw [location]
        rfl
      · simp [DeviceChunk.new, DeviceChunk.len, deviceChunkCapacity]
      · intro i different
        rw [location] at different
        dsimp only at different
        rcases Nat.lt_or_ge i arena.chunks.length with inside | outside
        · rw [List.getElem?_append_left inside]
        · rw [List.getElem?_eq_none (by simp; omega), List.getElem?_eq_none outside]
      · rw [List.length_append, List.length_singleton]
        omega
  obtain ⟨shaped, ht, hp⟩ := ok
  obtain ⟨pushed, hpush, shaped', rows', defined', ht', hp'⟩ :=
    DeviceChunk.pushEmptyRow_spec shaped room prepared.device
  have inside : prepared.location.chunkIndex < chunks.length := (List.getElem?_eq_some_iff.mp hc).1
  have len' : pushed.len = chunk.len + 1 := by
    have := congrArg List.length rows'
    simpa using this
  obtain ⟨locator, hl⟩ := DeviceLocator.new_isSome (show prepared.location.chunkIndex <
    maxDeviceChunks by omega) (len ▸ room)
  have entryLoc := DeviceDirectoryEntry.loc_resident hl
  -- the directory entry is appended or overwrites a free one
  obtain ⟨directory, written, length, here, elsewhere, member⟩ : ∃ directory,
      (if prepared.device.index = arena.directory.length then
        some (arena.directory ++ [.resident locator])
        else assign arena.directory prepared.device.index (.resident locator)) = some directory ∧
      directory.length = max arena.directory.length (prepared.device.index + 1) ∧
      directory[prepared.device.index]? = some (.resident locator) ∧
      (∀ i, i ≠ prepared.device.index → directory[i]? = arena.directory[i]?) ∧
      ∀ entry ∈ directory, entry ∈ arena.directory ∨ entry = .resident locator := by
    by_cases last : prepared.device.index = arena.directory.length
    · refine ⟨arena.directory ++ [.resident locator], by rw [if_pos last], ?_, ?_, ?_, ?_⟩
      · rw [List.length_append, List.length_singleton]
        omega
      · rw [last]
        simp
      · intro i different
        rcases Nat.lt_or_ge i arena.directory.length with inside | outside
        · rw [List.getElem?_append_left inside]
        · rw [List.getElem?_eq_none (by simp; omega), List.getElem?_eq_none outside]
      · intro entry member
        simpa using member
    · have inside : prepared.device.index < arena.directory.length := by omega
      refine ⟨arena.directory.set prepared.device.index (.resident locator), ?_, ?_, ?_, ?_, ?_⟩
      · rw [if_neg last, assign_of_lt inside]
      · rw [List.length_set]
        omega
      · rw [List.getElem?_set_self inside]
      · intro i different
        rw [List.getElem?_set_ne (Ne.symm different)]
      · intro entry member
        exact List.mem_or_eq_of_mem_set member
  have table' : ∀ active, table (DeviceArena.mk directory
      (chunks.set prepared.location.chunkIndex pushed) active) =
      (chunks.map DeviceChunk.rows).set prepared.location.chunkIndex pushed.rows := by
    intro active
    rw [table, List.map_set]
  have newRows : pushed.rows =
      chunk.rows ++ [newRow prepared.device prepared.definitionId definition] := by
    rw [rows']
    simp only [DeviceChunk.emptyRow, newRow, defined, ht, hp]
  have slot := ready.slot
  let hint : Option Nat := if pushed.isFull then none else some prepared.location.chunkIndex
  let next : DeviceArena F :=
    { directory, chunks := chunks.set prepared.location.chunkIndex pushed
      activeChunks := arena.activeChunks.set prepared.definitionId.index hint }
  have run : (commitInsert prepared arena : Outcome _ ε _) = .ok
      { chunkIndex := prepared.location.chunkIndex, row := prepared.location.row
        createdChunk := prepared.createdChunk } next := by
    rw [commitInsert, Call.get_bind]
    dsimp only
    rw [opened, Call.expect_some_bind, hc, Call.expect_some_bind, hpush]
    dsimp only
    rw [hl, Call.expect_some_bind, written, Call.expect_some_bind, assign_of_lt slot,
      Call.expect_some_bind]
    rfl
  have grown : (prepared.createdChunk = true ∧ prepared.location = ⟨arena.chunks.length, 0⟩ ∧
        next.table = arena.table ++ [[newRow prepared.device prepared.definitionId definition]]) ∨
      prepared.createdChunk = false ∧ arena.chunks[prepared.location.chunkIndex]? = some chunk ∧
        next.table = arena.table.pushRow prepared.location.chunkIndex
          (newRow prepared.device prepared.definitionId definition) := by
    rcases place with ⟨created, rfl⟩ | ⟨created, location, rfl, empty⟩
    · refine Or.inr ⟨created, hc, ?_⟩
      have pushed' : arena.table[prepared.location.chunkIndex]? = some chunk.rows := by
        rw [table, List.getElem?_map, hc, Option.map_some]
      rw [table', ChunkTable.pushRow_eq_set pushed', newRows]
      rfl
    · refine Or.inl ⟨created, location, ?_⟩
      rw [table', location, newRows, empty, List.map_append]
      simp [table]
  have rowsAt : ∀ l, next.table.rowAt l = if l = prepared.location.loc then
      some (newRow prepared.device prepared.definitionId definition) else arena.table.rowAt l := by
    intro l
    rcases grown with ⟨-, location, grown⟩ | ⟨-, hc, grown⟩
    · rw [grown, ChunkTable.rowAt_newChunk, location]
      rw [DeviceLocation.loc, table, List.length_map]
    · have pushed' : arena.table[prepared.location.chunkIndex]? = some chunk.rows := by
        rw [table, List.getElem?_map, hc, Option.map_some]
      rw [grown, ChunkTable.rowAt_pushRow pushed', DeviceChunk.length_rows, len, DeviceLocation.loc]
  have vacant : arena.table.rowAt prepared.location.loc = none := by
    cases found : arena.table.rowAt prepared.location.loc with
    | none => rfl
    | some row =>
      obtain ⟨other, device, ho, hd, -⟩ := rowAt_table.mp found
      rcases grown with ⟨-, location, -⟩ | ⟨-, hc, -⟩
      · rw [location] at ho
        simp [DeviceLocation.loc] at ho
      · obtain rfl := Option.some.inj (hc.symm.trans ho)
        have := (List.getElem?_eq_some_iff.mp hd).1
        simp only [DeviceLocation.loc, ← len, DeviceChunk.len] at this
        omega
  have locHere : next.locAt prepared.device.index = some prepared.location.loc := by
    rw [locAt, here, Option.bind_some, entryLoc]
    rfl
  have locElse : ∀ i, i ≠ prepared.device.index → next.locAt i = arena.locAt i := by
    intro i different
    rw [locAt, locAt, elsewhere i different]
  obtain ⟨indexes, found, kept⟩ := h.indexes.insert
    (x := newRow prepared.device prepared.definitionId definition) free rowsAt vacant locHere locElse
  have chunksOk : ∀ c ∈ next.chunks, ChunkOk registry c := by
    intro c member
    obtain ⟨i, hi⟩ := List.mem_iff_getElem?.mp member
    by_cases same : prepared.location.chunkIndex = i
    · rw [← same, List.getElem?_set_self inside] at hi
      obtain rfl := Option.some.inj hi
      exact ⟨shaped', by omega, by simp only [deviceChunkCapacity] at *; omega,
        definition, by rw [defined', defined, known], ht'.trans ht, hp'.trans hp⟩
    · rw [List.getElem?_set_ne same, others i (Ne.symm same)] at hi
      exact h.chunks c (List.mem_of_getElem? hi)
  have hintsOk : HintsOk next.chunks next.activeChunks := by
    have before : HintsOk chunks arena.activeChunks := by
      rcases place with ⟨-, rfl⟩ | ⟨-, location, rfl, -⟩
      · exact h.hints
      · constructor
        · intro definition c read
          obtain ⟨other, ho, rest⟩ := h.hints.usable definition c read
          have := (List.getElem?_eq_some_iff.mp ho).1
          exact ⟨other, by rw [List.getElem?_append_left this, ho], rest⟩
        · intro other member
          rcases List.mem_append.mp member with old | new
          · exact h.hints.slots other old
          · obtain rfl := List.mem_singleton.mp new
            rw [defined]
            exact slot
    have fits : ∀ c', hint = some c' →
        c' = prepared.location.chunkIndex ∧ pushed.len < deviceChunkCapacity := by
      intro c' read
      simp only [hint] at read
      split at read
      · simp at read
      · rename_i open'
        rw [DeviceChunk.isFull_iff] at open'
        simp only [deviceChunkCapacity] at *
        exact ⟨(Option.some.inj read).symm, by omega⟩
    have := before.replace hc defined' fits
    rwa [defined] at this
  have head : next.heads = (chunks.map fun chunk => (chunk.definitionId, chunk.len)).set
      prepared.location.chunkIndex (prepared.definitionId, prepared.location.row + 1) := by
    rw [heads, List.map_set, defined', defined, len', len]
  refine ⟨_, next, run, ⟨⟨chunksOk, ?_, ?_, indexes, hintsOk⟩, length, locHere, found, ?_, ?_, ?_, ?_⟩,
    rfl, rfl⟩
  · simpa [next] using packed
  · intro entry inDirectory
    rcases member entry inDirectory with old | rfl
    · exact h.loaded entry old
    · exact DeviceDirectoryEntry.loaded_resident hl
  · intro other different
    exact locElse _ fun same => different (NonZeroId.index_inj.mp same)
  · intro other different
    exact kept _ fun same => different (NonZeroId.index_inj.mp same)
  · rcases grown with ⟨created, location, grown⟩ | ⟨created, hc, grown⟩
    · exact Or.inl ⟨created, by rw [DeviceInsertResult.location, location]; rfl, grown⟩
    · exact Or.inr ⟨created, chunk, hc, defined, len.symm, grown⟩
  · rw [head]
    rcases place with ⟨created, rfl⟩ | ⟨created, location, rfl, -⟩
    · rw [if_neg (by simp [created])]
      rfl
    · rw [if_pos created, location]
      simp [heads]

end DeviceArena

end Hynergy
