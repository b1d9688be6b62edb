import Hynergy.Network.Operations

/-!
# The operations on terminals and devices
-/

namespace Hynergy

open Lib

variable {F : Type}

namespace Network

variable {registry : DefinitionRegistry F} {self next : Network F}

/-! ### Attaching and detaching a terminal -/

theorem terminalConnection_of_record (h : Stored registry self) {device : DeviceId}
    {row : DeviceRow F} (found : self.record device = some row) (terminal : TerminalId) :
    terminalConnection device terminal self =
      match row.terminals[terminal.index]? with
      | none => .err .invalidTerminal self
      | some connection => .ok connection self := by
  have read := h.arena.terminalConnection_eq device terminal
  rw [show self.deviceArena.record device = some row from found] at read
  cases at' : row.terminals[terminal.index]? with
  | none =>
    dsimp only at read
    rw [at'] at read
    exact arena_err read
  | some connection =>
    dsimp only at read
    rw [at'] at read
    exact arena_ok read

theorem terminalConnection_absent (h : Stored registry self) {device : DeviceId}
    (absent : self.record device = none) (terminal : TerminalId) :
    terminalConnection device terminal self = .err (.idNotAssigned .device device.get) self := by
  have read := h.arena.terminalConnection_eq device terminal
  rw [show self.deviceArena.record device = none from absent] at read
  exact arena_err read

theorem terminalRef_of_fits {device : DeviceId} {terminal : TerminalId} (fits : terminal.id < 2 ^ 31) :
    terminalRef device terminal self = .ok (.terminal device terminal fits) self := by
  rw [terminalRef, ConnectionRef.terminal?_eq_some.mpr ⟨fits, rfl⟩, Call.okOr_some]

theorem terminalRef_of_large {device : DeviceId} {terminal : TerminalId}
    (large : ¬ terminal.id < 2 ^ 31) :
    terminalRef device terminal self = .err .invalidTerminal self := by
  rw [terminalRef, ConnectionRef.terminal?, dif_neg large, Call.okOr_none]

theorem attachTerminal_spec (h : Consistent registry self) (wire : WireId) (device : DeviceId)
    (terminal : TerminalId) :
    (∃ next fits, attachTerminal wire device terminal self = .ok () next ∧
      self.Live (.wire wire) ∧ self.Live (.terminal device terminal fits) ∧
      (∀ c, ¬ self.Lists (.terminal device terminal fits) c) ∧
      Relinked registry self next
        (Link self.Lists (.wire wire) (.terminal device terminal fits))) ∨
      ∃ e, attachTerminal wire device terminal self = .err e self := by
  unfold attachTerminal
  cases live : self.wireSlot wire with
  | none => exact Or.inr ⟨_, Call.bind_err (wireConnections_of_dead live)⟩
  | some slot =>
  rw [Call.bind_ok (wireConnections_of_live live)]
  cases found : self.record device with
  | none => exact Or.inr ⟨_, Call.bind_err (terminalConnection_absent h.toStored found terminal)⟩
  | some row =>
  have read := terminalConnection_of_record h.toStored found terminal
  cases at' : row.terminals[terminal.index]? with
  | none =>
    rw [at'] at read
    exact Or.inr ⟨_, Call.bind_err read⟩
  | some connection =>
  rw [at'] at read
  rw [Call.bind_ok read]
  by_cases fits : terminal.id < 2 ^ 31
  swap
  · exact Or.inr ⟨_, Call.bind_err (terminalRef_of_large fits)⟩
  rw [Call.bind_ok (terminalRef_of_fits fits)]
  cases connection with
  | some taken => exact Or.inr ⟨_, Call.rejectIf_bind_pos (by rfl) _⟩
  | none =>
  rw [Call.rejectIf_bind_neg (by simp)]
  have bound := (List.getElem?_eq_some_iff.mp at').1
  rcases h.arena.attachTerminal_spec device terminal (.wire wire) with
    ⟨row', arena, found', free, run, edited⟩ | ⟨-, never⟩
  swap
  · exact absurd at' (never row found)
  obtain rfl := Option.some.inj (found.symm.trans found')
  have wired := wired_of_edited found bound edited
  have stored := wired.stored h.toStored edited.consistent (by
    rintro c ⟨⟩
    exact ⟨⟨wire, rfl⟩, fits⟩)
  have live' : Network.wireSlot { self with deviceArena := arena } wire = some slot := by
    rw [wired.wireSlot, live]
  have unlisted : ∀ c, ¬ self.Lists (.terminal device terminal fits) c := by
    rintro c ⟨row', found', read'⟩
    obtain rfl := Option.some.inj (found.symm.trans found')
    rw [at'] at read'
    simp at read'
  have new : ConnectionRef.terminal device terminal fits ∉ slot := fun member =>
    unlisted _ ((h.wire_symm live _).mp member)
  obtain ⟨nodup, members⟩ := addConnection_spec (h.nodup wire slot live) new
  rw [Call.bind_ok (arena_ok run), editWire, Call.bind_ok (wireConnections_of_live live')]
  refine Or.inl ⟨_, fits, rfl, ⟨slot, live⟩, ⟨row, found, bound⟩, unlisted, .of_stored h ?_ ?_ ?_
    fun x y => ?_⟩
  · exact stored.setWire live' nodup
  · exact wired.sameEnds.trans (sameEnds_setWire live' _)
  · exact h.edges.link (by simp)
  · rw [lists_setWire live', Link, members]
    by_cases isWire : x = .wire wire
    · subst isWire
      simp [Lists, live]
    · rw [if_neg isWire, wired.lists]
      by_cases isTerminal : x = .terminal device terminal fits
      · subst isTerminal
        have here : IsTerminal (.terminal device terminal fits) device terminal.index :=
          ⟨terminal, fits, rfl, rfl⟩
        simp [here, unlisted y, eq_comm]
      · have elsewhere : ¬ IsTerminal x device terminal.index := by
          rintro ⟨port, fits', rfl, same⟩
          obtain rfl := Id.ext' same
          exact isTerminal rfl
        simp [elsewhere, isWire, isTerminal]

theorem detachTerminal_spec (h : Consistent registry self) (wire : WireId) (device : DeviceId)
    (terminal : TerminalId) :
    (∃ next fits, detachTerminal wire device terminal self = .ok () next ∧
      self.Lists (.wire wire) (.terminal device terminal fits) ∧
      Relinked registry self next
        (Unlink self.Lists (.wire wire) (.terminal device terminal fits))) ∨
      ∃ e, detachTerminal wire device terminal self = .err e self := by
  unfold detachTerminal
  cases live : self.wireSlot wire with
  | none => exact Or.inr ⟨_, Call.bind_err (wireConnections_of_dead live)⟩
  | some slot =>
  rw [Call.bind_ok (wireConnections_of_live live)]
  by_cases fits : terminal.id < 2 ^ 31
  swap
  · exact Or.inr ⟨_, Call.bind_err (terminalRef_of_large fits)⟩
  rw [Call.bind_ok (terminalRef_of_fits fits)]
  cases found : self.record device with
  | none => exact Or.inr ⟨_, Call.bind_err (terminalConnection_absent h.toStored found terminal)⟩
  | some row =>
  have read := terminalConnection_of_record h.toStored found terminal
  cases at' : row.terminals[terminal.index]? with
  | none =>
    rw [at'] at read
    exact Or.inr ⟨_, Call.bind_err read⟩
  | some connection =>
  rw [at'] at read
  rw [Call.bind_ok read]
  by_cases absent : connection ≠ some (.wire wire) ∨
      slot.containsConnection (.terminal device terminal fits) = false
  · exact Or.inr ⟨_, Call.rejectIf_bind_pos absent _⟩
  rw [Call.rejectIf_bind_neg absent]
  simp only [not_or, not_not, Bool.not_eq_false, containsConnection_iff] at absent
  obtain ⟨rfl, member⟩ := absent
  have bound := (List.getElem?_eq_some_iff.mp at').1
  rcases h.arena.detachTerminal_spec device terminal with
    ⟨row', taken, arena, found', read', run, edited⟩ | ⟨-, never⟩
  swap
  · rw [never row found] at at'
    simp at at'
  obtain rfl := Option.some.inj (found.symm.trans found')
  have wired := wired_of_edited found bound edited
  have stored := wired.stored h.toStored edited.consistent (by simp)
  have live' : Network.wireSlot { self with deviceArena := arena } wire = some slot := by
    rw [wired.wireSlot, live]
  obtain ⟨rest, removed, nodup, members⟩ := removeConnection_spec (h.nodup wire slot live) member
  rw [Call.bind_ok (arena_ok run), editWire, Call.bind_ok (wireConnections_of_live live'), removed]
  refine Or.inl ⟨_, fits, rfl, ⟨slot, live, member⟩, .of_stored h ?_ ?_ ?_ fun x y => ?_⟩
  · exact stored.setWire live' nodup
  · exact wired.sameEnds.trans (sameEnds_setWire live' _)
  · exact h.edges.unlink _ _
  · rw [lists_setWire live', Unlink, members]
    by_cases isWire : x = .wire wire
    · subst isWire
      simp [Lists, live]
    · rw [if_neg isWire, wired.lists]
      by_cases isTerminal : x = .terminal device terminal fits
      · subst isTerminal
        have here : IsTerminal (.terminal device terminal fits) device terminal.index :=
          ⟨terminal, fits, rfl, rfl⟩
        simp [here, Lists, found, at', eq_comm]
      · have elsewhere : ¬ IsTerminal x device terminal.index := by
          rintro ⟨port, fits', rfl, same⟩
          obtain rfl := Id.ext' same
          exact isTerminal rfl
        simp [elsewhere, isWire, isTerminal]

/-! ### Adding a device -/

/-- The same network but for the chunk hints. -/
def withHints (self : Network F) (active : List (Option Nat)) : Network F :=
  { self with deviceArena := { self.deviceArena with activeChunks := active } }

theorem lists_withHints (active : List (Option Nat)) :
    (self.withHints active).Lists = self.Lists := by
  funext x y
  cases x <;> rfl

theorem Consistent.withHints (h : Consistent registry self) {active : List (Option Nat)}
    (arena : DeviceArena.Consistent registry (self.withHints active).deviceArena) :
    Consistent registry (self.withHints active) :=
  ⟨⟨arena, h.nodup, h.toWires⟩, h.wireBound, h.deviceBound,
    h.edges.congr (fun x y => by rw [lists_withHints])⟩

/-- A prepared device insertion that can be committed. -/
structure Ready (registry : DefinitionRegistry F) (network : Network F)
    (prepared : PreparedDeviceInsert F) (definition : DeviceDefinition F) : Prop where
  known : registry.get prepared.definitionId = some definition
  small : prepared.device.get ≤ maxPackedId
  bound : prepared.device.index ≤ network.deviceArena.directoryLen
  free : network.record prepared.device = none
  prepared : DeviceArena.Prepared registry network.deviceArena prepared

/-- Either the insertion is prepared, or the network is as it was; only exhausting the chunk
range leaves a trace, in empty hint slots. -/
theorem prepareAddDevice_spec (h : Consistent registry self) (id : DeviceId)
    (definitionId : DefinitionId) :
    (∃ prepared definition active, prepareAddDevice registry id definitionId self =
        .ok prepared (self.withHints active) ∧ prepared.device = id ∧
        prepared.definitionId = definitionId ∧ Consistent registry (self.withHints active) ∧
        Ready registry (self.withHints active) prepared definition) ∨
      (∃ e, prepareAddDevice registry id definitionId self = .err e self) ∨
      ∃ n, prepareAddDevice registry id definitionId self = .err .deviceArenaExhausted
        (self.withHints (self.deviceArena.activeChunks ++ List.replicate n none)) ∧
        Consistent registry
          (self.withHints (self.deviceArena.activeChunks ++ List.replicate n none)) := by
  unfold prepareAddDevice
  by_cases large : id.get > maxPackedId
  · exact Or.inr (Or.inl ⟨_, Call.rejectIf_bind_pos large _⟩)
  rw [Call.rejectIf_bind_neg large, Call.get_bind]
  by_cases outside : id.index > self.deviceArena.directoryLen
  · exact Or.inr (Or.inl ⟨_, Call.rejectIf_bind_pos outside _⟩)
  rw [Call.rejectIf_bind_neg outside]
  by_cases assigned : id.index < self.deviceArena.directoryLen ∧ self.deviceArena.isAssigned id = true
  · exact Or.inr (Or.inl ⟨_, Call.rejectIf_bind_pos assigned _⟩)
  rw [Call.rejectIf_bind_neg assigned]
  cases known : registry.get definitionId with
  | none => exact Or.inr (Or.inl ⟨_, rfl⟩)
  | some definition =>
  rw [Call.okOr_some_bind]
  have free : self.record id = none := by
    apply h.arena.record_eq_none.mpr
    by_contra located
    refine assigned ⟨?_, h.arena.isAssigned_iff.mpr located⟩
    obtain ⟨loc, at'⟩ := Option.ne_none_iff_exists'.mp located
    exact DeviceArena.index_lt_of_locAt at'
  obtain ⟨active, consistent, ⟨prepared, run, rfl, rfl, ready⟩ | ⟨run, -, -, n, rfl⟩⟩ :=
    DeviceArena.prepareInsert_spec h.arena id known
  · exact Or.inl ⟨prepared, definition, active, arena_ok run, rfl, rfl, h.withHints consistent,
      known, by omega, by simpa [withHints, DeviceArena.directoryLen] using outside, free, ready⟩
  · exact Or.inr (Or.inr ⟨n, arena_err run, h.withHints consistent⟩)

/-- Device `id` appears, attached to nothing. -/
structure DeviceAdded [F64 F] (registry : DefinitionRegistry F) (before after : Network F)
    (id : DeviceId) (definitionId : DefinitionId) (definition : DeviceDefinition F)
    (result : DeviceInsertResult) : Prop where
  wires : after.wires = before.wires
  free : before.record id = none
  inserted : DeviceArena.Inserted registry before.deviceArena after.deviceArena id definitionId
    definition result

theorem DeviceAdded.lists [F64 F] {id : DeviceId} {definitionId : DefinitionId}
    {definition : DeviceDefinition F} {result : DeviceInsertResult}
    (h : DeviceAdded registry self next id definitionId definition result) (x y : ConnectionRef) :
    next.Lists x y ↔ self.Lists x y := by
  cases x with
  | wire other => rw [Lists, Lists, wireSlot, wireSlot, h.wires]
  | terminal device port fits =>
    rw [Lists, Lists]
    by_cases same : device = id
    · subst same
      rw [h.free, show next.record device = _ from h.inserted.added]
      simp only [Option.some.injEq, exists_eq_left', DeviceArena.newRow, reduceCtorEq, false_and,
        List.getElem?_replicate]
      split <;> simp
    · rw [show next.record device = self.record device from h.inserted.kept device same]

theorem commitAddDevice_spec [F64 F] (h : Consistent registry self)
    {prepared : PreparedDeviceInsert F} {definition : DeviceDefinition F}
    (ready : Ready registry self prepared definition) :
    ∃ result next, commitAddDevice prepared self = .ok result next ∧ Consistent registry next ∧
      result.location = prepared.location ∧ result.createdChunk = prepared.createdChunk ∧
      DeviceAdded registry self next prepared.device prepared.definitionId definition result := by
  obtain ⟨result, arena, run, inserted, location, created⟩ :=
    DeviceArena.commitInsert_spec (ε := NetworkModelError) h.arena ready.prepared ready.known
      ready.bound (h.arena.record_eq_none.mp ready.free)
  have added : DeviceAdded registry self { self with deviceArena := arena } prepared.device
      prepared.definitionId definition result := ⟨rfl, ready.free, inserted⟩
  refine ⟨result, _, arena_ok run, ⟨⟨inserted.consistent, h.nodup, ?_⟩, h.wireBound, ?_,
    h.edges.congr added.lists⟩, location, created, added⟩
  · intro device row t connection found read
    by_cases same : device = prepared.device
    · subst same
      obtain rfl := Option.some.inj (inserted.added.symm.trans found)
      rw [DeviceArena.newRow, List.getElem?_replicate] at read
      split at read <;> simp at read
    · exact h.toWires device row t connection ((inserted.kept device same).symm.trans found) read
  · rw [DeviceArena.directoryLen, inserted.directory]
    have := ready.small
    have := prepared.device.get_eq
    have := h.deviceBound
    simp only [DeviceArena.directoryLen] at *
    omega

/-! ### Removing a device -/

/-- `x` is a terminal of the device. -/
def OfDevice (device : DeviceId) (x : ConnectionRef) : Prop :=
  ∃ port fits, x = .terminal device port fits

/-- The loop of a removal unlinks every attached terminal from its wire. -/
theorem unlinkTerminals_spec {id : DeviceId} (terminals : List (Option ConnectionRef)) (first : Nat)
    (self : Network F) (h : Stored registry self)
    (attached : ∀ i c, terminals[i]? = some (some c) → ∃ port fits,
      port.index = first + i ∧ self.Lists c (.terminal id port fits) ∧ ∃ w, c = .wire w) :
    ∃ next, unlinkTerminals id first terminals self = .ok () next ∧ Stored registry next ∧
      next.deviceArena = self.deviceArena ∧ SameEnds self next ∧
      ∀ x y, next.Lists x y ↔ self.Lists x y ∧ ¬ ∃ i port fits, terminals[i]? = some (some x) ∧
        port.index = first + i ∧ y = .terminal id port fits := by
  induction terminals generalizing first self with
  | nil => exact ⟨self, rfl, h, rfl, .refl self, by simp⟩
  | cons terminal rest ih =>
    cases terminal with
    | none =>
      obtain ⟨next, run, stored, arena, same, lists⟩ := ih (first + 1) self h (by
        intro i c read
        obtain ⟨port, fits, at', rest'⟩ := attached (i + 1) c (by simpa using read)
        exact ⟨port, fits, by omega, rest'⟩)
      refine ⟨next, run, stored, arena, same, fun x y => ?_⟩
      rw [lists]
      refine and_congr_right fun _ => not_congr ?_
      constructor
      · rintro ⟨i, port, fits, read, at', rfl⟩
        exact ⟨i + 1, port, fits, by simpa using read, by omega, rfl⟩
      · rintro ⟨i, port, fits, read, at', rfl⟩
        cases i with
        | zero => simp at read
        | succ i => exact ⟨i, port, fits, by simpa using read, by omega, rfl⟩
    | some connection =>
      obtain ⟨port, fits, at', listed, w, rfl⟩ := attached 0 connection rfl
      obtain rfl : port.index = first := by omega
      obtain ⟨slot, kept, -, run, unlisted⟩ := unlinkOneWay_wire h listed
      obtain ⟨next, run', stored, arena, same, lists⟩ :=
        ih (port.index + 1) (self.setWire w (some kept)) unlisted.stored (by
          intro i c read
          obtain ⟨port', fits', at'', listed', wire⟩ := attached (i + 1) c (by simpa using read)
          refine ⟨port', fits', by omega, (unlisted.lists _ _).mpr ⟨listed', ?_⟩, wire⟩
          rintro ⟨-, same⟩
          cases same
          omega)
      refine ⟨next, ?_, stored, arena, unlisted.same.trans same, fun x y => ?_⟩
      · rw [unlinkTerminals, if_neg (by simp [ConnectionRef.connectionType])]
        rw [show (Id.ofIndex? port.index : Option TerminalId) = some port from
          Id.ofIndex?_eq_some.mpr rfl, Call.expect_some_bind,
          Call.bind_ok (Call.expectOk_ok (terminalRef_of_fits fits)), Call.bind_ok run]
        exact run'
      · rw [lists, unlisted.lists, and_assoc]
        refine and_congr_right fun _ => ?_
        rw [← not_or]
        refine not_congr ?_
        constructor
        · rintro (⟨rfl, rfl⟩ | ⟨i, port', fits', read, index, rfl⟩)
          · exact ⟨0, port, fits, rfl, rfl, rfl⟩
          · exact ⟨i + 1, port', fits', by simpa using read, by omega, rfl⟩
        · rintro ⟨i, port', fits', read, index, rfl⟩
          cases i with
          | zero =>
            obtain rfl := Id.ext' (show port'.id = port.id by simpa using index)
            exact Or.inl ⟨by simpa using read.symm, rfl⟩
          | succ i => exact Or.inr ⟨i, port', fits', by simpa using read, by omega, rfl⟩

/-- Device `id` goes, with every link at its terminals. -/
structure DeviceRemoved (registry : DefinitionRegistry F) (before after : Network F)
    (id : DeviceId) (row : DeviceRow F) (loc : Loc) (chunk : DeviceChunk F)
    (result : DeviceRemoveResult) : Prop where
  found : before.record id = some row
  located : before.deviceArena.locAt id.index = some loc
  inArena : before.deviceArena.chunks[loc.1]? = some chunk
  removed : DeviceArena.Removed registry before.deviceArena after.deviceArena id loc chunk result
  wires : SameWires before after
  lists : ∀ x y, after.Lists x y ↔ Isolate before.Lists (OfDevice id) x y

theorem device_spec [F64 F] (h : Stored registry self) (id : DeviceId) :
    (∃ row, self.record id = some row ∧ device id self =
      .ok ⟨row.definitionId, row.terminals, row.parameters.map decodeParameter⟩ self) ∨
    self.record id = none ∧ device id self = .err (.idNotAssigned .device id.get) self := by
  rcases h.arena.device_spec id with ⟨row, found, -, run⟩ | ⟨missing, run⟩
  · exact Or.inl ⟨row, found, arena_ok run⟩
  · exact Or.inr ⟨missing, arena_err run⟩

theorem removeDevice_spec [F64 F] (h : Consistent registry self) (id : DeviceId) :
    (∃ row loc chunk result next, removeDevice id self = .ok result next ∧
      Consistent registry next ∧ DeviceRemoved registry self next id row loc chunk result) ∨
      ((∃ e, removeDevice id self = .err e self) ∧ self.record id = none) := by
  rw [removeDevice, Call.get_bind]
  by_cases outside : id.index ≥ self.deviceArena.directoryLen
  · refine Or.inr ⟨⟨_, Call.rejectIf_bind_pos outside _⟩, h.arena.record_eq_none.mpr ?_⟩
    rw [DeviceArena.locAt, List.getElem?_eq_none outside]
    rfl
  rw [Call.rejectIf_bind_neg outside]
  rcases device_spec h.toStored id with ⟨row, found, read⟩ | ⟨missing, read⟩
  swap
  · exact Or.inr ⟨⟨_, Call.bind_err read⟩, missing⟩
  rw [Call.bind_ok read]
  obtain ⟨loc, located, -, -⟩ := h.arena.record_eq_some.mp found
  obtain ⟨mid, run, stored, arena, same, lists⟩ := unlinkTerminals_spec row.terminals 0 self
    h.toStored (by
      intro i c at'
      obtain ⟨⟨w, rfl⟩, fits⟩ := h.toWires id row i c found at'
      let port : TerminalId := ⟨i, fits.trans (by decide)⟩
      refine ⟨port, fits, (Nat.zero_add i).symm, h.edges.symm _ _ ⟨row, found, at'⟩, w, rfl⟩)
  have unlinked : ∀ x y, mid.Lists x y ↔ self.Lists x y ∧ ¬ OfDevice id y := by
    intro x y
    rw [lists]
    refine and_congr_right fun edge => not_congr ?_
    constructor
    · rintro ⟨i, port, fits, -, -, rfl⟩
      exact ⟨port, fits, rfl⟩
    · rintro ⟨port, fits, rfl⟩
      obtain ⟨row', found', at'⟩ := h.edges.symm _ _ edge
      obtain rfl := Option.some.inj (found.symm.trans found')
      exact ⟨port.index, port, fits, at', (Nat.zero_add _).symm, rfl⟩
  rw [← arena] at located
  obtain ⟨chunk, result, after, hc, inside, call, removed⟩ :=
    DeviceArena.remove_spec stored.arena located
  rw [Call.bind_ok run]
  rw [arena] at located hc removed
  have lists' : ∀ x y, Network.Lists { mid with deviceArena := after } x y ↔
      Isolate self.Lists (OfDevice id) x y := by
    intro x y
    rw [Isolate, and_comm (a := ¬ OfDevice id x), ← and_assoc, ← unlinked]
    cases x with
    | wire w =>
      have : ¬ OfDevice id (.wire w) := by rintro ⟨_, _, same⟩; cases same
      simp only [this, not_false_iff, and_true]
      rfl
    | terminal device port fits =>
      by_cases same : device = id
      · subst same
        have here : OfDevice device (.terminal device port fits) := ⟨port, fits, rfl⟩
        have gone : Network.record { mid with deviceArena := after } device = none := removed.removed
        simp only [here, not_true, and_false, iff_false, Lists, gone]
        simp
      · have other : ¬ OfDevice id (.terminal device port fits) := by
          rintro ⟨_, _, e⟩
          cases e
          exact same rfl
        have kept : Network.record { mid with deviceArena := after } device = mid.record device := by
          rw [record, record, arena]
          exact removed.kept device same
        simp only [other, not_false_iff, and_true, Lists, kept]
  refine Or.inl ⟨row, loc, chunk, result, _, arena_ok call, ?_, found, located, hc, removed,
    ⟨same.wires.length, same.wires.live⟩, lists'⟩
  refine ⟨⟨removed.consistent, stored.nodup, ?_⟩, ?_, ?_, (h.edges.isolate _).congr lists'⟩
  · intro device row' t connection found' read'
    have different : device ≠ id := by
      rintro rfl
      rw [show Network.record { mid with deviceArena := after } device = none from removed.removed]
        at found'
      simp at found'
    exact h.toWires device row' t connection ((removed.kept device different).symm.trans found') read'
  · exact same.wires.length ▸ h.wireBound
  · rw [DeviceArena.directoryLen, removed.directory]
    exact h.deviceBound

/-! ### Setting a parameter -/

/-- One parameter of one device is overwritten with a value its constraints allow. -/
structure ParameterSet [F64 F] (registry : DefinitionRegistry F) (before after : Network F)
    (id : DeviceId) (parameter : ParameterId) (value : F) (row : DeviceRow F) : Prop where
  wires : after.wires = before.wires
  found : before.record id = some row
  allowed : ∃ definition constraints, registry.get row.definitionId = some definition ∧
    definition.parameters[parameter.index]? = some constraints ∧ constraints.validate value = .ok ()
  inside : parameter.index < row.parameters.length
  edited : DeviceArena.Edited registry before.deviceArena after.deviceArena id
    { row with parameters := row.parameters.set parameter.index value }

theorem ParameterSet.lists [F64 F] {id : DeviceId} {parameter : ParameterId} {value : F}
    {row : DeviceRow F} (h : ParameterSet registry self next id parameter value row)
    (x y : ConnectionRef) : next.Lists x y ↔ self.Lists x y := by
  cases x with
  | wire other => rw [Lists, Lists, wireSlot, wireSlot, h.wires]
  | terminal device port fits =>
    rw [Lists, Lists]
    by_cases same : device = id
    · subst same
      rw [show next.record device = _ from h.edited.written, h.found]
      simp
    · rw [show next.record device = self.record device from h.edited.kept device same]

theorem setDeviceParameter_spec [F64 F] (h : Consistent registry self) (id : DeviceId)
    (parameter : ParameterId) (value : F) :
    (∃ row next, setDeviceParameter registry id parameter value self = .ok () next ∧
      Consistent registry next ∧ ParameterSet registry self next id parameter value row) ∨
      ∃ e, setDeviceParameter registry id parameter value self = .err e self := by
  unfold setDeviceParameter
  rcases device_spec h.toStored id with ⟨row, found, read⟩ | ⟨missing, read⟩
  swap
  · exact Or.inr ⟨_, Call.bind_err read⟩
  rw [Call.bind_ok read]
  dsimp only
  cases known : registry.get row.definitionId with
  | none => exact Or.inr ⟨_, rfl⟩
  | some definition =>
  rw [Call.okOr_some_bind]
  cases constraint : definition.parameters[parameter.index]? with
  | none => exact Or.inr ⟨_, rfl⟩
  | some constraints =>
  rw [Call.okOr_some_bind]
  cases valid : constraints.validate value with
  | error e => exact Or.inr ⟨_, rfl⟩
  | ok =>
  rw [Call.ofExcept_ok_bind]
  rcases h.arena.setParameter_spec id parameter value with
    ⟨row', arena, found', inside, run, edited⟩ | ⟨⟨e, run⟩, -⟩
  swap
  · exact Or.inr ⟨e, arena_err run⟩
  obtain rfl := Option.some.inj (found.symm.trans found')
  have set' : ParameterSet registry self { self with deviceArena := arena } id parameter value row :=
    ⟨rfl, found, ⟨definition, constraints, known, constraint, valid⟩, inside, edited⟩
  refine Or.inl ⟨row, _, arena_ok run, ⟨⟨edited.consistent, h.nodup, ?_⟩, h.wireBound, ?_,
    h.edges.congr set'.lists⟩, set'⟩
  · intro device row' t connection found'' read'
    by_cases same : device = id
    · subst same
      obtain rfl := Option.some.inj (edited.written.symm.trans found'')
      exact h.toWires device row t connection found read'
    · exact h.toWires device row' t connection ((edited.kept device same).symm.trans found'') read'
  · rw [DeviceArena.directoryLen, edited.directory]
    exact h.deviceBound

end Network

end Hynergy
