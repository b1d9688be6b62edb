import Hynergy.Network.ArenaEdit
import Hynergy.Network.ArenaRemove
import Mathlib.Logic.Relation

/-!
# Runs of the arena

One step is a call the network makes: an insertion, committed or abandoned, a removal or an
edit of one row. The invariant holds in every reachable arena.
-/

namespace Hynergy

open Lib

variable {F : Type}

namespace DeviceArena

variable {registry : DefinitionRegistry F} {arena next : DeviceArena F}

/-- What an insertion is called with: a free id within the directory's bound and a registered
definition. -/
structure Insertable (registry : DefinitionRegistry F) (arena : DeviceArena F) (device : DeviceId)
    (definitionId : DefinitionId) (definition : DeviceDefinition F) : Prop where
  known : registry.get definitionId = some definition
  bound : device.index ≤ arena.directoryLen
  free : arena.isAssigned device = false

inductive Step [F64 F] (registry : DefinitionRegistry F) : DeviceArena F → DeviceArena F → Prop
  | insert {arena ready next : DeviceArena F} {device : DeviceId} {definitionId : DefinitionId}
      {definition : DeviceDefinition F} {prepared : PreparedDeviceInsert F}
      {result : DeviceInsertResult} (insertable : Insertable registry arena device definitionId definition)
      (prepare : prepareInsert device definitionId definition arena = .ok prepared ready)
      (commit : (commitInsert prepared ready : Outcome _ NetworkModelError _) = .ok result next) :
      Step registry arena next
  | abandon {arena next : DeviceArena F} {device : DeviceId} {definitionId : DefinitionId}
      {definition : DeviceDefinition F}
      (insertable : Insertable registry arena device definitionId definition)
      (prepare : (prepareInsert device definitionId definition arena).Leaves next) :
      Step registry arena next
  | remove {arena next : DeviceArena F} {device : DeviceId}
      (call : (remove device arena).Leaves next) : Step registry arena next
  | setParameter {arena next : DeviceArena F} {device : DeviceId} {parameter : ParameterId} {value : F}
      (call : (setParameter device parameter value arena).Leaves next) : Step registry arena next
  | attach {arena next : DeviceArena F} {device : DeviceId} {terminal : TerminalId}
      {connection : ConnectionRef} (call : (attachTerminal device terminal connection arena).Leaves next) :
      Step registry arena next
  | detach {arena next : DeviceArena F} {device : DeviceId} {terminal : TerminalId}
      (call : (detachTerminal device terminal arena).Leaves next) : Step registry arena next

/-- Every other device is read as before. -/
def KeepsOthers [F64 F] (arena next : DeviceArena F) (device : DeviceId) : Prop :=
  ∀ other, other ≠ device → next.record other = arena.record other ∧
    ∀ view, DeviceArena.device other arena = .ok view arena ↔
      DeviceArena.device other next = .ok view next

theorem Consistent.empty (registry : DefinitionRegistry F) :
    Consistent registry ({} : DeviceArena F) where
  chunks := by simp
  packed := by simp
  loaded := by simp
  indexes := ⟨by simp [table, ChunkTable.rowAt], by simp [locAt]⟩
  hints := ⟨by simp, by simp⟩

theorem Consistent.insertable_free (h : Consistent registry arena) {device : DeviceId}
    (free : arena.isAssigned device = false) : arena.locAt device.index = none := by
  by_contra assigned
  rw [h.isAssigned_iff.mpr assigned] at free
  simp at free

/-- The two phases of an insertion together. -/
theorem Consistent.insert_spec [F64 F] (h : Consistent registry arena) {device : DeviceId}
    {definitionId : DefinitionId} {definition : DeviceDefinition F}
    (insertable : Insertable registry arena device definitionId definition) :
    ∃ active, Consistent registry { arena with activeChunks := active } ∧
      ((∃ prepared result next, prepareInsert device definitionId definition arena =
          .ok prepared { arena with activeChunks := active } ∧
          (commitInsert prepared { arena with activeChunks := active } :
            Outcome _ NetworkModelError _) = .ok result next ∧
          Inserted registry { arena with activeChunks := active } next device definitionId definition
            result) ∨
        prepareInsert device definitionId definition arena =
          .err .deviceArenaExhausted { arena with activeChunks := active } ∧
          arena.chunks.length = maxDeviceChunks ∧
          ∀ chunk ∈ arena.chunks, chunk.definitionId = definitionId →
            chunk.len = deviceChunkCapacity) := by
  obtain ⟨active, consistent, ok | failed⟩ := prepareInsert_spec h device insertable.known
  · obtain ⟨prepared, run, rfl, rfl, ready⟩ := ok
    obtain ⟨result, next, commit, inserted, -⟩ := commitInsert_spec (ε := NetworkModelError)
      consistent ready insertable.known insertable.bound (h.insertable_free insertable.free)
    exact ⟨active, consistent, Or.inl ⟨prepared, result, next, run, commit, inserted⟩⟩
  · obtain ⟨run, exhausted, full, -⟩ := failed
    exact ⟨active, consistent, Or.inr ⟨run, exhausted, full⟩⟩

theorem Consistent.remove_absent (h : Consistent registry arena) {device : DeviceId}
    (absent : arena.record device = none) :
    remove device arena = .err (.idNotAssigned .device device.get) arena :=
  Call.bind_err (resident_of_absent (h.record_eq_none.mp absent))

theorem Step.consistent [F64 F] (h : Consistent registry arena) (step : Step registry arena next) :
    Consistent registry next := by
  cases step with
  | insert insertable prepare commit =>
    obtain ⟨active, -, ok | ⟨failed, -⟩⟩ := h.insert_spec insertable
    · obtain ⟨prepared, result, final, run, commit', inserted⟩ := ok
      rw [run] at prepare
      cases prepare
      rw [commit'] at commit
      cases commit
      exact inserted.consistent
    · rw [failed] at prepare
      cases prepare
  | abandon insertable prepare =>
    obtain ⟨active, consistent, ok | ⟨failed, -⟩⟩ := h.insert_spec insertable
    · obtain ⟨prepared, result, final, run, -⟩ := ok
      rwa [prepare.of_ok run]
    · rwa [prepare.of_err failed]
  | @remove _ device call =>
    cases located : arena.locAt device.index with
    | none => rwa [call.of_err (h.remove_absent (h.record_eq_none.mpr located))]
    | some loc =>
      obtain ⟨chunk, result, final, -, -, run, removed⟩ := remove_spec h located
      rw [call.of_ok run]
      exact removed.consistent
  | setParameter call =>
    rcases h.setParameter_spec _ _ _ with ⟨row, final, -, -, run, edited⟩ | ⟨⟨e, run⟩, -⟩
    · rw [call.of_ok run]
      exact edited.consistent
    · rwa [call.of_err run]
  | attach call =>
    rcases h.attachTerminal_spec _ _ _ with ⟨row, final, -, -, run, edited⟩ | ⟨⟨e, run⟩, -⟩
    · rw [call.of_ok run]
      exact edited.consistent
    · rwa [call.of_err run]
  | detach call =>
    rcases h.detachTerminal_spec _ _ with ⟨row, current, final, -, -, run, edited⟩ | ⟨⟨e, run⟩, -⟩
    · rw [call.of_ok run]
      exact edited.consistent
    · rwa [call.of_err run]

theorem run_consistent [F64 F] (run : Relation.ReflTransGen (Step registry) {} arena) :
    Consistent registry arena := by
  induction run with
  | refl => exact .empty registry
  | tail _ step ih => exact step.consistent ih

theorem keepsOthers_of_records [F64 F] (h : Consistent registry arena) (h' : Consistent registry next)
    {device : DeviceId} (kept : ∀ other, other ≠ device → next.record other = arena.record other) :
    KeepsOthers arena next device := by
  intro other different
  refine ⟨kept other different, fun view => ?_⟩
  have same := kept other different
  rcases h.device_spec other with ⟨row, found, -, run⟩ | ⟨missing, run⟩ <;>
    rcases h'.device_spec other with ⟨row', found', -, run'⟩ | ⟨missing', run'⟩
  · rw [found, found'] at same
    obtain rfl := Option.some.inj same
    rw [run, run']
    simp
  · rw [found, missing'] at same
    simp at same
  · rw [missing, found'] at same
    simp at same
  · rw [run, run']
    simp

/-- After a removal the freed id is insertable, and with the definition it had the arena
always has room for it. -/
theorem Removed.insertable_again [F64 F] (h : Consistent registry arena) {device : DeviceId} {loc : Loc}
    {chunk : DeviceChunk F} {result : DeviceRemoveResult} (hc : arena.chunks[loc.1]? = some chunk)
    (located : arena.locAt device.index = some loc)
    (removed : Removed registry arena next device loc chunk result) {definitionId : DefinitionId}
    {definition : DeviceDefinition F} (known : registry.get definitionId = some definition)
    (room : definitionId = chunk.definitionId ∨ next.chunks.length < maxDeviceChunks) :
    Insertable registry next device definitionId definition ∧
      ∃ prepared ready result final, prepareInsert device definitionId definition next =
        .ok prepared ready ∧ (commitInsert prepared ready : Outcome _ NetworkModelError _) =
          .ok result final ∧ final.record device = some (newRow device definitionId definition) := by
  have consistent := removed.consistent
  have insertable : Insertable registry next device definitionId definition := by
    refine ⟨known, ?_, ?_⟩
    · have := index_lt_of_locAt located
      rw [directoryLen, removed.directory]
      omega
    · by_contra assigned
      rw [Bool.not_eq_false, consistent.isAssigned_iff] at assigned
      exact assigned removed.gone
  refine ⟨insertable, ?_⟩
  obtain ⟨active, -, ok | ⟨-, exhausted, full⟩⟩ := consistent.insert_spec insertable
  · obtain ⟨prepared, result, final, run, commit, inserted⟩ := ok
    exact ⟨prepared, _, result, final, run, commit, inserted.added⟩
  · -- the arena cannot be exhausted: either the chunk went, or it kept room
    exfalso
    rcases room with rfl | room
    · have ok := h.chunks chunk (List.mem_of_getElem? hc)
      have packed := h.packed
      have bound : loc.1 < arena.chunks.length := (List.getElem?_eq_some_iff.mp hc).1
      obtain ⟨rest, defined, len, chunks⟩ := removed.chunks
      by_cases emptied : chunk.len ≤ 1
      · rw [chunks, if_pos emptied, length_swapRemove] at exhausted
        omega
      · rw [chunks, if_neg emptied] at full
        have := full rest (List.mem_of_getElem? (List.getElem?_set_self bound)) defined
        have := ok.bounded
        omega
    · omega

/-- In every reachable arena the directory and the chunks are in bijection; an insertion and a
removal answer without a panic and leave every other device as it was, an abandoned insertion
leaves all of them; a freed id can be inserted again; and packed locators decode. -/
theorem arena_run_sound [F64 F] (run : Relation.ReflTransGen (Step registry) {} arena) :
    Consistent registry arena ∧
    (∀ device definitionId definition, Insertable registry arena device definitionId definition →
      ∃ ready, ready.directory = arena.directory ∧ ready.chunks = arena.chunks ∧
        Consistent registry ready ∧
        ((∃ prepared result next, prepareInsert device definitionId definition arena =
              .ok prepared ready ∧
            (commitInsert prepared ready : Outcome _ NetworkModelError _) = .ok result next ∧
            next.record device = some (newRow device definitionId definition) ∧
            KeepsOthers arena next device) ∨
          prepareInsert device definitionId definition arena = .err .deviceArenaExhausted ready ∧
            arena.chunks.length = maxDeviceChunks)) ∧
    (∀ device, (∃ row result next, arena.record device = some row ∧
        remove device arena = .ok result next ∧ next.record device = none ∧
        KeepsOthers arena next device ∧
        ∀ definitionId definition, registry.get definitionId = some definition →
          definitionId = row.definitionId ∨ next.chunks.length < maxDeviceChunks →
          ∃ prepared ready result final, prepareInsert device definitionId definition next =
            .ok prepared ready ∧ (commitInsert prepared ready : Outcome _ NetworkModelError _) =
              .ok result final ∧ final.record device = some (newRow device definitionId definition)) ∨
      arena.record device = none ∧
        remove device arena = .err (.idNotAssigned .device device.get) arena) ∧
    ∀ chunkIndex row locator, DeviceLocator.new chunkIndex row = some locator →
      locator.chunkIndex = chunkIndex ∧ locator.row = row ∧
        (DeviceDirectoryEntry.resident locator).residentLocator = some locator := by
  have h := run_consistent run
  refine ⟨h, ?_, ?_, ?_⟩
  · intro device definitionId definition insertable
    obtain ⟨active, consistent, ok | ⟨failed, exhausted, -⟩⟩ := h.insert_spec insertable
    · obtain ⟨prepared, result, next, prepare, commit, inserted⟩ := ok
      refine ⟨{ arena with activeChunks := active }, rfl, rfl, consistent, Or.inl ⟨prepared, result, next, prepare, commit,
        inserted.added, ?_⟩⟩
      exact keepsOthers_of_records h inserted.consistent inserted.kept
    · exact ⟨{ arena with activeChunks := active }, rfl, rfl, consistent, Or.inr ⟨failed, exhausted⟩⟩
  · intro device
    cases found : arena.record device with
    | none => exact Or.inr ⟨rfl, h.remove_absent found⟩
    | some row =>
      obtain ⟨loc, located, at', -⟩ := h.record_eq_some.mp found
      obtain ⟨chunk, result, next, hc, -, call, removed⟩ := remove_spec h located
      refine Or.inl ⟨row, result, next, rfl, call, removed.removed,
        keepsOthers_of_records h removed.consistent removed.kept, ?_⟩
      intro definitionId definition known room
      have defined : row.definitionId = chunk.definitionId := by
        obtain ⟨other, d, ho, -, rfl⟩ := rowAt_table.mp at'
        obtain rfl := Option.some.inj (hc.symm.trans ho)
        rfl
      rw [defined] at room
      exact (removed.insertable_again h hc located known room).2
  · intro chunkIndex row locator packed
    obtain ⟨hc, hr⟩ := DeviceLocator.decode_new packed
    exact ⟨hc, hr, DeviceDirectoryEntry.residentLocator_resident packed⟩

set_option maxRecDepth 8000 in
/-- Two resistors are inserted and the first one is removed, so that the second one moves to its row. -/
theorem arena_run_sound_resistor : ∃ arena : DeviceArena Float,
    arena.locAt 0 = none ∧ arena.locAt 1 = some (0, 0) ∧
      Consistent (DefinitionRegistry.new : DefinitionRegistry Float) arena := by
  let kind := PrimitiveElementKind.resistance
  have insertable : ∀ (arena : DeviceArena Float) (device : DeviceId), device.index ≤ arena.directoryLen →
      arena.isAssigned device = false →
      Insertable (DefinitionRegistry.new : DefinitionRegistry Float) arena device kind.definitionId kind.definition :=
    fun arena device inside free => ⟨DefinitionRegistry.get_new_definitionId _, inside, free⟩
  have run : ((prepareInsert (.ofIndex 0 (by decide)) kind.definitionId kind.definition
      ({} : DeviceArena Float)).returned.any fun first =>
      (commitInsert first.1 first.2 : Outcome _ NetworkModelError _).returned.any fun one =>
        decide (1 ≤ one.2.directoryLen) && !one.2.isAssigned (.ofIndex 1 (by decide)) &&
        (prepareInsert (.ofIndex 1 (by decide)) kind.definitionId kind.definition one.2).returned.any fun second =>
          (commitInsert second.1 second.2 : Outcome _ NetworkModelError _).returned.any fun two =>
            (remove (.ofIndex 0 (by decide)) two.2).returned.any fun removed =>
              decide (removed.2.locAt 0 = none) && decide (removed.2.locAt 1 = some (0, 0))) = true := by
    decide +kernel
  obtain ⟨⟨_, ready⟩, prepares, run⟩ := (Option.any_eq_true _ _).mp run
  obtain ⟨⟨_, one⟩, commits, run⟩ := (Option.any_eq_true _ _).mp run
  obtain ⟨free, run⟩ := Bool.and_eq_true_iff.mp run
  obtain ⟨inside, free⟩ := Bool.and_eq_true_iff.mp free
  obtain ⟨⟨_, ready'⟩, prepares', run⟩ := (Option.any_eq_true _ _).mp run
  obtain ⟨⟨_, two⟩, commits', run⟩ := (Option.any_eq_true _ _).mp run
  obtain ⟨⟨_, arena⟩, removes, run⟩ := (Option.any_eq_true _ _).mp run
  obtain ⟨gone, moved⟩ := Bool.and_eq_true_iff.mp run
  have steps : Relation.ReflTransGen (Step (.new : DefinitionRegistry Float)) {} arena :=
    .tail (.tail (.single (.insert (insertable {} (.ofIndex 0 (by decide)) (Nat.zero_le _) rfl)
        (Outcome.of_returned prepares) (Outcome.of_returned commits)))
      (.insert (insertable one (.ofIndex 1 (by decide)) (of_decide_eq_true inside) (Bool.not_eq_true' _ ▸ free))
        (Outcome.of_returned prepares') (Outcome.of_returned commits')))
      (.remove (Or.inl ⟨_, Outcome.of_returned removes⟩))
  exact ⟨arena, of_decide_eq_true gone, of_decide_eq_true moved, (arena_run_sound steps).1⟩

end DeviceArena

end Hynergy
