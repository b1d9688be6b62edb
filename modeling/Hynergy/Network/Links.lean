import Hynergy.Lib.Edges
import Hynergy.Network.ArenaEdit
import Hynergy.Network.Network

/-!
# Links of the network

A wire or a terminal is an end; `Lists x y` says that end `x` stores a reference to `y`. The
network is consistent when this relation is symmetric, never relates an end to itself, and no
reference is stored twice.
-/

namespace Hynergy

open Lib

variable {F : Type}

namespace Network

variable {registry : DefinitionRegistry F} {self next : Network F}

def record (self : Network F) (device : DeviceId) : Option (DeviceRow F) :=
  self.deviceArena.record device

def Lists (self : Network F) : ConnectionRef → ConnectionRef → Prop
  | .wire id, connection => ∃ slot, self.wireSlot id = some slot ∧ connection ∈ slot
  | .terminal device port _, connection =>
    ∃ row, self.record device = some row ∧ row.terminals[port.index]? = some (some connection)

/-- The wire is live, or the device is resident and has the terminal. -/
def Live (self : Network F) : ConnectionRef → Prop
  | .wire id => ∃ slot, self.wireSlot id = some slot
  | .terminal device port _ =>
    ∃ row, self.record device = some row ∧ port.index < row.terminals.length

theorem Lists.live {x y : ConnectionRef} (h : self.Lists x y) : self.Live x := by
  cases x with
  | wire id =>
    obtain ⟨slot, found, -⟩ := h
    exact ⟨slot, found⟩
  | terminal device port fits =>
    obtain ⟨row, found, read⟩ := h
    exact ⟨row, found, (List.getElem?_eq_some_iff.mp read).1⟩

/-- What holds of the stored references whatever ends they name. -/
structure Stored (registry : DefinitionRegistry F) (network : Network F) : Prop where
  arena : network.deviceArena.Consistent registry
  nodup : ∀ id slot, network.wireSlot id = some slot → slot.Nodup
  toWires : ∀ device row t connection, network.record device = some row →
    row.terminals[t]? = some (some connection) → (∃ id, connection = .wire id) ∧ t < 2 ^ 31

structure Consistent (registry : DefinitionRegistry F) (network : Network F) : Prop
    extends Stored registry network where
  wireBound : network.wires.length ≤ maxPackedId
  deviceBound : network.deviceArena.directoryLen ≤ maxPackedId
  edges : SimpleEdges network.Lists

/-- A row without what its terminals are attached to. -/
def bare (row : DeviceRow F) : DeviceId × DefinitionId × List F × Nat :=
  (row.device, row.definitionId, row.parameters, row.terminals.length)

/-- The same wires are live. -/
structure SameWires (before after : Network F) : Prop where
  length : after.wires.length = before.wires.length
  live : ∀ id, (after.wireSlot id).isSome = (before.wireSlot id).isSome

/-- The same devices at the same places, up to what their terminals are attached to. -/
structure SameDevices (before after : Network F) : Prop where
  directory : after.deviceArena.directory = before.deviceArena.directory
  heads : after.deviceArena.heads = before.deviceArena.heads
  rows : ∀ device, (after.record device).map bare = (before.record device).map bare

/-- Only links differ. -/
structure SameEnds (before after : Network F) : Prop where
  wires : SameWires before after
  devices : SameDevices before after

theorem SameWires.trans {a b c : Network F} (h : SameWires a b) (h' : SameWires b c) :
    SameWires a c :=
  ⟨h'.length.trans h.length, fun id => (h'.live id).trans (h.live id)⟩

theorem SameDevices.trans {a b c : Network F} (h : SameDevices a b) (h' : SameDevices b c) :
    SameDevices a c :=
  ⟨h'.directory.trans h.directory, h'.heads.trans h.heads,
    fun device => (h'.rows device).trans (h.rows device)⟩

theorem SameDevices.of_arena {before after : Network F}
    (same : after.deviceArena = before.deviceArena) : SameDevices before after :=
  ⟨by rw [same], by rw [same], fun device => by rw [record, record, same]⟩

theorem SameEnds.refl (self : Network F) : SameEnds self self :=
  ⟨⟨rfl, fun _ => rfl⟩, .of_arena rfl⟩

theorem SameEnds.trans {a b c : Network F} (h : SameEnds a b) (h' : SameEnds b c) :
    SameEnds a c := ⟨h.wires.trans h'.wires, h.devices.trans h'.devices⟩

/-! ### One wire -/

theorem index_lt_of_wireSlot {id : WireId} {slot : WireSlot} (h : self.wireSlot id = some slot) :
    id.index < self.wires.length := by
  have := Option.join_eq_some_iff.mp h
  exact (List.getElem?_eq_some_iff.mp this).1

theorem wireSlot_setWire {id : WireId} (inside : id.index < self.wires.length)
    (slot : Option WireSlot) (other : WireId) :
    (self.setWire id slot).wireSlot other = if other = id then slot else self.wireSlot other := by
  rw [wireSlot, setWire]
  by_cases same : other = id
  · subst same
    rw [if_pos rfl, List.getElem?_set_self inside]
    rfl
  · rw [if_neg same, List.getElem?_set_ne fun h => same (NonZeroId.index_inj.mp h).symm]
    rfl

@[simp] theorem deviceArena_setWire (id : WireId) (slot : Option WireSlot) :
    (self.setWire id slot).deviceArena = self.deviceArena := rfl

@[simp] theorem record_setWire (id : WireId) (slot : Option WireSlot) :
    (self.setWire id slot).record = self.record := rfl

theorem sameEnds_setWire {id : WireId} {slot : WireSlot} (live : self.wireSlot id = some slot)
    (slot' : WireSlot) : SameEnds self (self.setWire id (some slot')) := by
  refine ⟨⟨by rw [setWire, List.length_set], fun other => ?_⟩, .of_arena rfl⟩
  rw [wireSlot_setWire (index_lt_of_wireSlot live)]
  split
  · rename_i same
    rw [same, live]
    rfl
  · rfl

theorem Stored.setWire (h : Stored registry self) {id : WireId} {slot : WireSlot}
    (live : self.wireSlot id = some slot) {slot' : WireSlot} (nodup : slot'.Nodup) :
    Stored registry (self.setWire id (some slot')) := by
  refine ⟨h.arena, ?_, h.toWires⟩
  intro other found read
  rw [wireSlot_setWire (index_lt_of_wireSlot live)] at read
  split at read
  · obtain rfl := Option.some.inj read
    exact nodup
  · exact h.nodup other found read

/-- Only what wire `id` lists differs. -/
theorem lists_setWire {id : WireId} {slot : WireSlot} (live : self.wireSlot id = some slot)
    (slot' : WireSlot) (x y : ConnectionRef) :
    (self.setWire id (some slot')).Lists x y ↔ if x = .wire id then y ∈ slot' else self.Lists x y := by
  cases x with
  | wire other =>
    rw [Lists, wireSlot_setWire (index_lt_of_wireSlot live)]
    by_cases same : other = id
    · subst same
      simp
    · rw [if_neg same, if_neg (by simpa using same)]
      rfl
  | terminal device port fits =>
    rw [if_neg (by simp)]
    rfl

theorem removeConnection_spec {slot : WireSlot} {connection : ConnectionRef} (nodup : slot.Nodup)
    (member : connection ∈ slot) :
    ∃ rest, slot.removeConnection connection = (true, rest) ∧ rest.Nodup ∧
      ∀ y, y ∈ rest ↔ y ∈ slot ∧ y ≠ connection := by
  unfold WireSlot.removeConnection
  cases found : slot.findIdx? (· = connection) with
  | none =>
    have := List.findIdx?_eq_none_iff.mp found connection member
    simp at this
  | some index =>
    obtain ⟨inside, same, -⟩ := List.findIdx?_eq_some_iff_getElem.mp found
    have at' : slot[index]? = some connection := by
      rw [List.getElem?_eq_getElem inside, of_decide_eq_true same]
    exact ⟨_, rfl, nodup_swapRemove nodup inside, fun y => mem_swapRemove nodup at'⟩

theorem addConnection_spec {slot : WireSlot} {connection : ConnectionRef} (nodup : slot.Nodup)
    (new : connection ∉ slot) :
    (slot.addConnection connection).Nodup ∧
      ∀ y, y ∈ slot.addConnection connection ↔ y ∈ slot ∨ y = connection := by
  refine ⟨?_, fun y => by simp [WireSlot.addConnection]⟩
  rw [WireSlot.addConnection, List.nodup_append]
  refine ⟨nodup, List.nodup_singleton _, ?_⟩
  rintro a member b hb rfl
  exact new (List.mem_singleton.mp hb ▸ member)

/-! ### One terminal -/

section Arena

variable {α : Type} {call : Call (DeviceArena F) NetworkModelError α} {value : α}
  {error : NetworkModelError} {after : DeviceArena F}

theorem arena_ok (h : call self.deviceArena = .ok value after) :
    arena call self = .ok value { self with deviceArena := after } := Call.zoom_ok h

theorem arena_err (h : call self.deviceArena = .err error after) :
    arena call self = .err error { self with deviceArena := after } := Call.zoom_err h

end Arena

/-- `x` is terminal `t` of the device. -/
def IsTerminal (x : ConnectionRef) (device : DeviceId) (t : Nat) : Prop :=
  ∃ port fits, x = .terminal device port fits ∧ port.index = t

/-- An edit of one terminal of the arena, seen from the network. -/
structure Wired (before after : Network F) (device : DeviceId) (t : Nat)
    (value : Option ConnectionRef) : Prop where
  wires : after.wires = before.wires
  written : ∃ row, before.record device = some row ∧ t < row.terminals.length ∧
    after.record device = some { row with terminals := row.terminals.set t value }
  kept : ∀ other, other ≠ device → after.record other = before.record other
  directory : after.deviceArena.directory = before.deviceArena.directory
  heads : after.deviceArena.heads = before.deviceArena.heads

theorem wired_of_edited {arena : DeviceArena F} {device : DeviceId} {row : DeviceRow F} {t : Nat}
    {value : Option ConnectionRef} (found : self.record device = some row)
    (ht : t < row.terminals.length)
    (edited : DeviceArena.Edited registry self.deviceArena arena device
      { row with terminals := row.terminals.set t value }) :
    Wired self { self with deviceArena := arena } device t value :=
  ⟨rfl, ⟨row, found, ht, edited.written⟩, edited.kept, edited.directory, edited.heads⟩

namespace Wired

variable {device : DeviceId} {t : Nat} {value : Option ConnectionRef}

theorem wireSlot (h : Wired self next device t value) (id : WireId) :
    next.wireSlot id = self.wireSlot id := by
  rw [Network.wireSlot, Network.wireSlot, h.wires]

theorem sameEnds (h : Wired self next device t value) : SameEnds self next := by
  refine ⟨⟨by rw [h.wires], fun id => by rw [h.wireSlot]⟩, h.directory, h.heads, fun other => ?_⟩
  by_cases same : other = device
  · subst same
    obtain ⟨row, before, -, after⟩ := h.written
    rw [before, after]
    simp [bare]
  · rw [h.kept other same]

theorem terminals (h : Wired self next device t value) (other : DeviceId) (i : Nat)
    (connection : ConnectionRef) :
    (∃ row, next.record other = some row ∧ row.terminals[i]? = some (some connection)) ↔
      if other = device ∧ i = t then value = some connection
      else ∃ row, self.record other = some row ∧ row.terminals[i]? = some (some connection) := by
  by_cases same : other = device
  · subst same
    obtain ⟨row, before, ht, after⟩ := h.written
    rw [before, after]
    by_cases here : i = t
    · subst here
      simp [List.getElem?_set_self ht]
    · simp [here, Ne.symm here]
  · rw [h.kept other same, if_neg (fun both => same both.1)]

/-- Only what that terminal lists differs. -/
theorem lists (h : Wired self next device t value) (x y : ConnectionRef) :
    next.Lists x y ↔ (IsTerminal x device t ∧ value = some y) ∨
      (¬ IsTerminal x device t ∧ self.Lists x y) := by
  cases x with
  | wire id =>
    have other : ¬ IsTerminal (.wire id) device t := by rintro ⟨_, _, same, -⟩; cases same
    simp only [other, false_and, not_false_iff, true_and, false_or, Lists, h.wireSlot]
  | terminal other port fits =>
    rw [Lists, h.terminals]
    by_cases here : other = device ∧ port.index = t
    · have at' : IsTerminal (.terminal other port fits) device t :=
        ⟨port, fits, by rw [here.1], here.2⟩
      simp only [if_pos here, at', true_and, not_true, false_and, or_false]
    · have elsewhere : ¬ IsTerminal (.terminal other port fits) device t := by
        rintro ⟨port', fits', same, at'⟩
        cases same
        exact here ⟨rfl, at'⟩
      simp only [if_neg here, elsewhere, false_and, not_false_iff, true_and, false_or, Lists]

theorem stored (h : Wired self next device t value) (before : Stored registry self)
    (arena : next.deviceArena.Consistent registry)
    (valid : ∀ connection, value = some connection → (∃ id, connection = .wire id) ∧ t < 2 ^ 31) :
    Stored registry next := by
  refine ⟨arena, fun id slot read => before.nodup id slot (h.wireSlot id ▸ read), ?_⟩
  intro other row i connection found read
  have := (h.terminals other i connection).mp ⟨row, found, read⟩
  split at this
  · rename_i here
    exact here.2 ▸ valid connection this
  · obtain ⟨row', found', read'⟩ := this
    exact before.toWires other row' i connection found' read'

end Wired

/-! ### Unlinking one end -/

/-- End `endpoint` no longer lists `peer`; nothing else changes. -/
structure Unlisted (registry : DefinitionRegistry F) (before after : Network F)
    (endpoint peer : ConnectionRef) : Prop where
  stored : Stored registry after
  same : SameEnds before after
  lists : ∀ x y, after.Lists x y ↔ before.Lists x y ∧ ¬ (x = endpoint ∧ y = peer)

theorem unlinkOneWay_wire (h : Stored registry self) {id : WireId} {peer : ConnectionRef}
    (listed : self.Lists (.wire id) peer) :
    ∃ slot rest, self.wireSlot id = some slot ∧
      unlinkOneWay (.wire id) peer self = .ok () (self.setWire id (some rest)) ∧
      Unlisted registry self (self.setWire id (some rest)) (.wire id) peer := by
  obtain ⟨slot, live, member⟩ := listed
  obtain ⟨rest, run, nodup, members⟩ := removeConnection_spec (h.nodup id slot live) member
  refine ⟨slot, rest, live, ?_, h.setWire live nodup, sameEnds_setWire live rest, fun x y => ?_⟩
  · rw [unlinkOneWay, Call.get_bind, live, Call.expect_some_bind, run]
    rfl
  · rw [lists_setWire live]
    by_cases here : x = .wire id
    · subst here
      rw [if_pos rfl, members, Lists]
      simp [live]
    · simp [here]

theorem unlinkOneWay_spec (h : Stored registry self) {endpoint peer : ConnectionRef}
    (listed : self.Lists endpoint peer) :
    ∃ next, unlinkOneWay endpoint peer self = .ok () next ∧
      Unlisted registry self next endpoint peer := by
  cases endpoint with
  | wire id =>
    obtain ⟨slot, rest, -, run, unlisted⟩ := unlinkOneWay_wire h listed
    exact ⟨_, run, unlisted⟩
  | terminal device port fits =>
    obtain ⟨row, found, read⟩ := listed
    have bound := (List.getElem?_eq_some_iff.mp read).1
    have current : terminalConnection device port self = .ok (some peer) self := by
      have := h.arena.terminalConnection_eq device port
      rw [show self.deviceArena.record device = some row from found] at this
      dsimp only at this
      rw [read] at this
      exact arena_ok this
    rcases h.arena.detachTerminal_spec device port with
      ⟨row', taken, arena, found', read', run, edited⟩ | ⟨-, missing⟩
    · obtain rfl := Option.some.inj (found.symm.trans found')
      have wired := wired_of_edited found bound edited
      refine ⟨{ self with deviceArena := arena }, ?_,
        wired.stored h edited.consistent (by simp), wired.sameEnds, fun x y => ?_⟩
      · rw [unlinkOneWay, Call.bind_ok (Call.expectOk_ok current),
          Call.bind_ok (Call.expectOk_ok (arena_ok run))]
        rfl
      · rw [wired.lists]
        by_cases here : IsTerminal x device port.index
        · obtain ⟨port', fits', rfl, same⟩ := here
          obtain rfl := Id.ext' same
          have at' : IsTerminal (.terminal device port' fits') device port'.index :=
            ⟨port', fits', rfl, rfl⟩
          simp only [at', Lists, found, Option.some.injEq, exists_eq_left', read, reduceCtorEq,
            and_false, not_true, false_and, or_false, false_iff, true_and, not_and, not_not]
          exact fun h => h.symm
        · have : x ≠ .terminal device port fits := fun same => here ⟨port, fits, same, rfl⟩
          simp [here, this]
    · rw [missing row found] at read
      simp at read

end Network

end Hynergy
