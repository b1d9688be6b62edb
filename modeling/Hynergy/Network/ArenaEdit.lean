import Hynergy.Network.ArenaInvariant

/-!
# Reading and editing one row of the arena
-/

namespace Hynergy

open Lib

variable {F : Type}

namespace DeviceArena

variable {registry : DefinitionRegistry F} {arena : DeviceArena F} {device : DeviceId}
  {row : DeviceRow F}

/-- Where the row of a device with a record is kept. -/
structure Site (registry : DefinitionRegistry F) (arena : DeviceArena F) (device : DeviceId)
    (row : DeviceRow F) (loc : Loc) (locator : DeviceLocator) (chunk : DeviceChunk F) : Prop where
  resident : resident device arena = .ok locator arena
  chunkIndex : locator.chunkIndex = loc.1
  rowIndex : locator.row = loc.2
  located : arena.locAt device.index = some loc
  inArena : arena.chunks[loc.1]? = some chunk
  inChunk : chunk.deviceIds[loc.2]? = some device
  row : row = chunk.rowOf loc.2 device
  ok : ChunkOk registry chunk

theorem Consistent.site (h : Consistent registry arena) (found : arena.record device = some row) :
    ∃ loc locator chunk, Site registry arena device row loc locator chunk := by
  obtain ⟨loc, located, at', -⟩ := h.record_eq_some.mp found
  obtain ⟨chunk, d, hc, hd, rfl⟩ := rowAt_table.mp at'
  obtain ⟨other, d', ho, hd', same, ok, -⟩ := h.chunk_of_locAt located
  obtain rfl := Option.some.inj (hc.symm.trans ho)
  obtain rfl := Option.some.inj (hd.symm.trans hd')
  obtain rfl := NonZeroId.index_inj.mp same
  obtain ⟨locator, run, h1, h2⟩ := resident_of_locAt located
  exact ⟨loc, locator, chunk, run, h1, h2, located, hc, hd, rfl, ok⟩

namespace Site

variable {loc : Loc} {locator : DeviceLocator} {chunk : DeviceChunk F}

theorem inside (s : Site registry arena device row loc locator chunk) : loc.2 < chunk.len :=
  (List.getElem?_eq_some_iff.mp s.inChunk).1

theorem terminals_length (s : Site registry arena device row loc locator chunk) :
    row.terminals.length = chunk.terminalCount := by
  rw [s.row]
  exact length_row s.ok.shaped.terminals s.inside

theorem parameters_length (s : Site registry arena device row loc locator chunk) :
    row.parameters.length = chunk.parameterCount := by
  rw [s.row]
  exact length_row s.ok.shaped.parameters s.inside

theorem terminalIndex (s : Site registry arena device row loc locator chunk) (terminal : TerminalId) :
    chunk.terminalIndex loc.2 terminal = if terminal.index < row.terminals.length then
      some (loc.2 * chunk.terminalCount + terminal.index) else none := by
  rw [DeviceChunk.terminalIndex, s.terminals_length]

theorem parameterIndex (s : Site registry arena device row loc locator chunk)
    (parameter : ParameterId) :
    chunk.parameterIndex loc.2 parameter = if parameter.index < row.parameters.length then
      some (loc.2 * chunk.parameterCount + parameter.index) else none := by
  rw [DeviceChunk.parameterIndex, s.parameters_length]

theorem terminal (s : Site registry arena device row loc locator chunk) {t : Nat}
    (ht : t < row.terminals.length) :
    chunk.terminals[loc.2 * chunk.terminalCount + t]? = row.terminals[t]? := by
  rw [s.terminals_length] at ht
  rw [s.row, DeviceChunk.rowOf, DeviceChunk.terminalsAt, getElem?_row, if_pos ht]

theorem parameter (s : Site registry arena device row loc locator chunk) {p : Nat}
    (hp : p < row.parameters.length) :
    chunk.parameters[loc.2 * chunk.parameterCount + p]? = row.parameters[p]? := by
  rw [s.parameters_length] at hp
  rw [s.row, DeviceChunk.rowOf, DeviceChunk.parametersAt, getElem?_row, if_pos hp]

end Site

/-- What overwriting the row of `device` does to the arena. -/
structure Edited (registry : DefinitionRegistry F) (arena next : DeviceArena F) (device : DeviceId)
    (row : DeviceRow F) : Prop where
  consistent : Consistent registry next
  directory : next.directory = arena.directory
  written : next.record device = some row
  kept : ∀ other, other ≠ device → next.record other = arena.record other
  stays : ∀ i, next.locAt i = arena.locAt i
  heads : next.heads = arena.heads
  table : ∃ loc, arena.locAt device.index = some loc ∧ next.table = arena.table.setRow loc row

theorem Site.edit {loc : Loc} {locator : DeviceLocator} {chunk next : DeviceChunk F}
    (h : Consistent registry arena) (s : Site registry arena device row loc locator chunk)
    {row' : DeviceRow F} (shaped : next.Shaped) (ids : next.deviceIds = chunk.deviceIds)
    (definition : next.definitionId = chunk.definitionId)
    (counts : next.terminalCount = chunk.terminalCount ∧
      next.parameterCount = chunk.parameterCount)
    (rows : next.rows = chunk.rows.set loc.2 row') (same : row'.device = device) :
    Edited registry arena { arena with chunks := arena.chunks.set loc.1 next } device row' := by
  have bound : loc.1 < arena.chunks.length := (List.getElem?_eq_some_iff.mp s.inArena).1
  have len : next.len = chunk.len := by rw [DeviceChunk.len, ids, DeviceChunk.len]
  have tableChunk : arena.table[loc.1]? = some chunk.rows := by
    rw [table, List.getElem?_map, s.inArena, Option.map_some]
  have table' : table { arena with chunks := arena.chunks.set loc.1 next } =
      arena.table.setRow loc row' := by
    rw [ChunkTable.setRow_eq_set tableChunk, table, List.map_set, rows, table]
  have at' : arena.table.rowAt loc = some (chunk.rowOf loc.2 device) :=
    rowAt_table.mpr ⟨chunk, device, s.inArena, s.inChunk, rfl⟩
  obtain ⟨indexes, written, kept⟩ := h.indexes.overwrite (y := row') at' (by rw [key, same]; rfl)
  rw [← table'] at indexes written kept
  have heads' : heads { arena with chunks := arena.chunks.set loc.1 next } = arena.heads := by
    rw [heads, List.map_set, definition, len, heads]
    exact set_of_getElem? (getElem?_heads s.inArena)
  refine ⟨⟨?_, ?_, h.loaded, indexes, ?_⟩, rfl, written, ?_, fun _ => rfl, heads', loc, s.located,
    table'⟩
  · intro c member
    rcases List.mem_or_eq_of_mem_set member with old | rfl
    · exact h.chunks c old
    · obtain ⟨d, known, ht, hp⟩ := s.ok.definition
      exact ⟨shaped, by rw [len]; exact s.ok.occupied, by rw [len]; exact s.ok.bounded, d,
        by rw [definition, known], counts.1.trans ht, counts.2.trans hp⟩
  · rw [List.length_set]
    exact h.packed
  · constructor
    · intro k c read
      obtain ⟨other, ho, defined, room⟩ := h.hints.usable k c read
      by_cases here : loc.1 = c
      · subst here
        obtain rfl := Option.some.inj (s.inArena.symm.trans ho)
        exact ⟨next, by rw [List.getElem?_set_self bound], by rw [definition, defined],
          by rwa [len]⟩
      · exact ⟨other, by rw [List.getElem?_set_ne here, ho], defined, room⟩
    · intro c member
      rcases List.mem_or_eq_of_mem_set member with old | rfl
      · exact h.hints.slots c old
      · rw [definition]
        exact h.hints.slots chunk (List.mem_of_getElem? s.inArena)
  · intro other different
    exact kept _ fun same => different (NonZeroId.index_inj.mp same)

/-- One value of a column is overwritten: the rows change in that value alone. -/
theorem Site.edit_terminal {loc : Loc} {locator : DeviceLocator} {chunk : DeviceChunk F}
    (h : Consistent registry arena) (s : Site registry arena device row loc locator chunk) {t : Nat}
    (ht : t < row.terminals.length) (value : Option ConnectionRef) :
    Edited registry arena
      { arena with
        chunks := arena.chunks.set loc.1
          { chunk with
            terminals := chunk.terminals.set (loc.2 * chunk.terminalCount + t) value } }
      device { row with terminals := row.terminals.set t value } := by
  have width := s.terminals_length
  refine s.edit h ⟨?_, s.ok.shaped.parameters⟩ rfl rfl ⟨rfl, rfl⟩ ?_ (by rw [s.row]; rfl)
  · rw [List.length_set]
    exact s.ok.shaped.terminals
  · apply List.ext_getElem?
    intro k
    rw [DeviceChunk.getElem?_rows, List.getElem?_set, DeviceChunk.length_rows, if_pos s.inside,
      DeviceChunk.getElem?_rows]
    by_cases here : loc.2 = k
    · subst here
      rw [if_pos rfl, s.inChunk, Option.map_some, s.row]
      simp only [DeviceChunk.rowOf, DeviceChunk.terminalsAt, row_set (width ▸ ht), if_true]
      rfl
    · rw [if_neg here]
      congr 1
      funext d
      simp only [DeviceChunk.rowOf, DeviceChunk.terminalsAt, row_set (width ▸ ht),
        if_neg (Ne.symm here)]
      rfl

theorem Site.edit_parameter {loc : Loc} {locator : DeviceLocator} {chunk : DeviceChunk F}
    (h : Consistent registry arena) (s : Site registry arena device row loc locator chunk) {p : Nat}
    (hp : p < row.parameters.length) (value : F) :
    Edited registry arena
      { arena with
        chunks := arena.chunks.set loc.1
          { chunk with
            parameters := chunk.parameters.set (loc.2 * chunk.parameterCount + p) value } }
      device { row with parameters := row.parameters.set p value } := by
  have width := s.parameters_length
  refine s.edit h ⟨s.ok.shaped.terminals, ?_⟩ rfl rfl ⟨rfl, rfl⟩ ?_ (by rw [s.row]; rfl)
  · rw [List.length_set]
    exact s.ok.shaped.parameters
  · apply List.ext_getElem?
    intro k
    rw [DeviceChunk.getElem?_rows, List.getElem?_set, DeviceChunk.length_rows, if_pos s.inside,
      DeviceChunk.getElem?_rows]
    by_cases here : loc.2 = k
    · subst here
      rw [if_pos rfl, s.inChunk, Option.map_some, s.row]
      simp only [DeviceChunk.rowOf, DeviceChunk.parametersAt, row_set (width ▸ hp), if_true]
      rfl
    · rw [if_neg here]
      congr 1
      funext d
      simp only [DeviceChunk.rowOf, DeviceChunk.parametersAt, row_set (width ▸ hp),
        if_neg (Ne.symm here)]
      rfl

theorem Consistent.resident_absent (h : Consistent registry arena)
    (absent : arena.record device = none) :
    resident device arena = .err (.idNotAssigned .device device.get) arena :=
  resident_of_absent (h.record_eq_none.mp absent)

/-- `terminal_connection`: what the device's row holds at the terminal. -/
theorem Consistent.terminalConnection_eq (h : Consistent registry arena) (device : DeviceId)
    (terminal : TerminalId) :
    terminalConnection device terminal arena =
      match arena.record device with
      | none => .err (.idNotAssigned .device device.get) arena
      | some row =>
        match row.terminals[terminal.index]? with
        | none => .err .invalidTerminal arena
        | some connection => .ok connection arena := by
  cases found : arena.record device with
  | none => exact Call.bind_err (h.resident_absent found)
  | some row =>
    obtain ⟨loc, locator, chunk, s⟩ := h.site found
    rw [terminalConnection, Call.bind_ok s.resident, Call.get_bind, s.chunkIndex, s.inArena,
      Call.expect_some_bind, s.rowIndex, s.terminalIndex]
    by_cases ht : terminal.index < row.terminals.length
    · dsimp only
      rw [if_pos ht, Call.okOr_some_bind, s.terminal ht, List.getElem?_eq_getElem ht]
      rfl
    · dsimp only
      rw [if_neg ht, List.getElem?_eq_none (l := row.terminals) (by omega)]
      rfl

theorem Consistent.attachTerminal_spec (h : Consistent registry arena) (device : DeviceId)
    (terminal : TerminalId) (connection : ConnectionRef) :
    (∃ row next, arena.record device = some row ∧ row.terminals[terminal.index]? = some none ∧
      attachTerminal device terminal connection arena = .ok () next ∧
      Edited registry arena next device
        { row with terminals := row.terminals.set terminal.index (some connection) }) ∨
    (∃ e, attachTerminal device terminal connection arena = .err e arena) ∧
      ∀ row, arena.record device = some row → row.terminals[terminal.index]? ≠ some none := by
  cases found : arena.record device with
  | none => exact Or.inr ⟨⟨_, Call.bind_err (h.resident_absent found)⟩, by simp⟩
  | some row =>
    obtain ⟨loc, locator, chunk, s⟩ := h.site found
    rw [attachTerminal, Call.bind_ok s.resident, Call.get_bind, s.chunkIndex, s.inArena,
      Call.expect_some_bind, s.rowIndex, s.terminalIndex]
    by_cases ht : terminal.index < row.terminals.length
    · have at' := s.terminal ht
      rw [if_pos ht, Call.okOr_some_bind, at', List.getElem?_eq_getElem ht, Call.expect_some_bind]
      cases current : row.terminals[terminal.index] with
      | none =>
        have inside : loc.2 * chunk.terminalCount + terminal.index < chunk.terminals.length := by
          rw [List.getElem?_eq_getElem ht] at at'
          exact (List.getElem?_eq_some_iff.mp at').1
        rw [Call.rejectIf_bind_neg (by simp), assign_of_lt inside, Call.expect_some_bind]
        exact Or.inl ⟨row, _, rfl, by rw [List.getElem?_eq_getElem ht, current], rfl,
          s.edit_terminal h ht (some connection)⟩
      | some taken =>
        rw [Call.rejectIf_bind_pos (by rfl)]
        refine Or.inr ⟨⟨_, rfl⟩, ?_⟩
        rintro _ ⟨⟩
        rw [List.getElem?_eq_getElem ht, current]
        simp
    · rw [if_neg ht, Call.okOr_none_bind]
      refine Or.inr ⟨⟨_, rfl⟩, ?_⟩
      rintro _ ⟨⟩
      rw [List.getElem?_eq_none (by omega)]
      simp

theorem Consistent.detachTerminal_spec (h : Consistent registry arena) (device : DeviceId)
    (terminal : TerminalId) :
    (∃ row current next, arena.record device = some row ∧
      row.terminals[terminal.index]? = some current ∧
      detachTerminal device terminal arena = .ok current next ∧
      Edited registry arena next device
        { row with terminals := row.terminals.set terminal.index none }) ∨
    (∃ e, detachTerminal device terminal arena = .err e arena) ∧
      ∀ row, arena.record device = some row → row.terminals[terminal.index]? = none := by
  cases found : arena.record device with
  | none => exact Or.inr ⟨⟨_, Call.bind_err (h.resident_absent found)⟩, by simp⟩
  | some row =>
    obtain ⟨loc, locator, chunk, s⟩ := h.site found
    rw [detachTerminal, Call.bind_ok s.resident, Call.get_bind, s.chunkIndex, s.inArena,
      Call.expect_some_bind, s.rowIndex, s.terminalIndex]
    by_cases ht : terminal.index < row.terminals.length
    · have at' := s.terminal ht
      have inside : loc.2 * chunk.terminalCount + terminal.index < chunk.terminals.length := by
        rw [List.getElem?_eq_getElem ht] at at'
        exact (List.getElem?_eq_some_iff.mp at').1
      rw [if_pos ht, Call.okOr_some_bind, at', List.getElem?_eq_getElem ht, Call.expect_some_bind,
        assign_of_lt inside, Call.expect_some_bind, Call.set_bind]
      exact Or.inl ⟨row, _, _, rfl, List.getElem?_eq_getElem ht, rfl, s.edit_terminal h ht none⟩
    · rw [if_neg ht, Call.okOr_none_bind]
      refine Or.inr ⟨⟨_, rfl⟩, ?_⟩
      rintro _ ⟨⟩
      exact List.getElem?_eq_none (by omega)

theorem Consistent.setParameter_spec (h : Consistent registry arena) (device : DeviceId)
    (parameter : ParameterId) (value : F) :
    (∃ row next, arena.record device = some row ∧ parameter.index < row.parameters.length ∧
      setParameter device parameter value arena = .ok () next ∧
      Edited registry arena next device
        { row with parameters := row.parameters.set parameter.index value }) ∨
    (∃ e, setParameter device parameter value arena = .err e arena) ∧
      ∀ row, arena.record device = some row → row.parameters.length ≤ parameter.index := by
  cases found : arena.record device with
  | none => exact Or.inr ⟨⟨_, Call.bind_err (h.resident_absent found)⟩, by simp⟩
  | some row =>
    obtain ⟨loc, locator, chunk, s⟩ := h.site found
    rw [setParameter, Call.bind_ok s.resident, Call.get_bind, s.chunkIndex, s.inArena,
      Call.expect_some_bind, s.rowIndex, s.parameterIndex]
    by_cases hp : parameter.index < row.parameters.length
    · have at' := s.parameter hp
      have inside : loc.2 * chunk.parameterCount + parameter.index < chunk.parameters.length := by
        rw [List.getElem?_eq_getElem hp] at at'
        exact (List.getElem?_eq_some_iff.mp at').1
      rw [if_pos hp, Call.okOr_some_bind, assign_of_lt inside, Call.expect_some_bind]
      exact Or.inl ⟨row, _, rfl, hp, rfl, s.edit_parameter h hp value⟩
    · rw [if_neg hp, Call.okOr_none_bind]
      refine Or.inr ⟨⟨_, rfl⟩, ?_⟩
      rintro _ ⟨⟩
      omega

end DeviceArena

end Hynergy
