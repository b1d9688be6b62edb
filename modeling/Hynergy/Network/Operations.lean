import Hynergy.Network.ArenaRemove
import Hynergy.Network.Links

/-!
# The operations on the network

Each operation either fails and leaves the network as it was, or keeps it consistent and
edits the links as its name says.
-/

namespace Hynergy

open Lib

variable {F : Type}

namespace Network

variable {registry : DefinitionRegistry F} {self next : Network F}

theorem Consistent.wire_symm (h : Consistent registry self) {id : WireId} {slot : WireSlot}
    (live : self.wireSlot id = some slot) (c : ConnectionRef) :
    c ∈ slot ↔ self.Lists c (.wire id) := by
  constructor
  · intro member
    exact h.edges.symm _ _ ⟨slot, live, member⟩
  · intro listed
    obtain ⟨slot', live', member⟩ := h.edges.symm _ _ listed
    obtain rfl := Option.some.inj (live.symm.trans live')
    exact member

theorem wireConnections_of_live {id : WireId} {slot : WireSlot} (live : self.wireSlot id = some slot) :
    wireConnections id self = .ok slot self := by
  rw [wireConnections, Call.get_bind, live, Call.okOr_some]

theorem wireConnections_of_dead {id : WireId} (dead : self.wireSlot id = none) :
    wireConnections id self = .err (.idNotAssigned .wire id.get) self := by
  rw [wireConnections, Call.get_bind, dead, Call.okOr_none]

/-! ### Adding a wire -/

/-- Wire `id` appears, connected to nothing. -/
structure WireAdded (before after : Network F) (id : WireId) : Prop where
  free : before.wireSlot id = none
  arena : after.deviceArena = before.deviceArena
  length : after.wires.length = max before.wires.length (id.index + 1)
  slots : ∀ other, after.wireSlot other = if other = id then some [] else before.wireSlot other

theorem WireAdded.lists {id : WireId} (h : WireAdded self next id) (x y : ConnectionRef) :
    next.Lists x y ↔ self.Lists x y := by
  cases x with
  | wire other =>
    rw [Lists, h.slots, Lists]
    by_cases same : other = id
    · subst same
      simp [h.free]
    · rw [if_neg same]
  | terminal device port fits => rw [Lists, Lists, record, record, h.arena]

theorem WireAdded.consistent {id : WireId} (before : Consistent registry self) (h : WireAdded self next id)
    (bound : next.wires.length ≤ maxPackedId) : Consistent registry next := by
  refine ⟨⟨by rw [h.arena]; exact before.arena, ?_, ?_⟩, bound, by rw [h.arena]; exact before.deviceBound,
    before.edges.congr h.lists⟩
  · intro other slot read
    rw [h.slots] at read
    split at read
    · obtain rfl := Option.some.inj read
      exact List.nodup_nil
    · exact before.nodup other slot read
  · intro device row t connection found
    exact before.toWires device row t connection (by rwa [record, h.arena] at found)

theorem addWire_spec (h : Consistent registry self) (id : WireId) :
    (∃ next, addWire id self = .ok () next ∧ Consistent registry next ∧ WireAdded self next id) ∨
      ∃ e, addWire id self = .err e self := by
  unfold addWire
  by_cases large : id.get > maxPackedId
  · exact Or.inr ⟨_, Call.rejectIf_bind_pos large _⟩
  rw [Call.rejectIf_bind_neg large, Call.get_bind]
  by_cases outside : id.index > self.wires.length
  · exact Or.inr ⟨_, Call.rejectIf_bind_pos outside _⟩
  rw [Call.rejectIf_bind_neg outside]
  have indexGet := id.get_eq
  by_cases last : id.index = self.wires.length
  · rw [if_pos last]
    have free : self.wireSlot id = none := by
      rw [wireSlot, last, List.getElem?_eq_none (Nat.le_refl _)]
      rfl
    have added : WireAdded self { self with wires := self.wires ++ [some []] } id := by
      refine ⟨free, rfl, by rw [List.length_append, List.length_singleton]; omega, fun other => ?_⟩
      rw [wireSlot]
      by_cases same : other = id
      · subst same
        rw [if_pos rfl, last, List.getElem?_concat_length]
        rfl
      · have different : other.index ≠ self.wires.length := fun e =>
          same (NonZeroId.index_inj.mp (e.trans last.symm))
        rw [if_neg same, wireSlot]
        rcases Nat.lt_or_ge other.index self.wires.length with inside | beyond
        · rw [List.getElem?_append_left inside]
        · rw [List.getElem?_eq_none (by simp; omega), List.getElem?_eq_none beyond]
    refine Or.inl ⟨_, rfl, added.consistent h ?_, added⟩
    rw [added.length]
    have := h.wireBound
    omega
  · rw [if_neg last]
    cases live : self.wireSlot id with
    | some slot => exact Or.inr ⟨_, Call.rejectIf_bind_pos (by rfl) _⟩
    | none =>
      rw [Call.rejectIf_bind_neg (by simp)]
      have inside : id.index < self.wires.length := by omega
      have added : WireAdded self (self.setWire id (some [])) id :=
        ⟨live, rfl, by rw [setWire, List.length_set]; omega, wireSlot_setWire inside _⟩
      refine Or.inl ⟨_, rfl, added.consistent h ?_, added⟩
      rw [added.length]
      have := h.wireBound
      omega

/-! ### Removing a wire -/

/-- A loop of unlinks removes exactly the listed directions. -/
theorem unlink_all (peer : ConnectionRef) (connections : List ConnectionRef) (self : Network F)
    (h : Stored registry self) (nodup : connections.Nodup)
    (listed : ∀ c ∈ connections, self.Lists c peer) :
    ∃ next, (connections.forM fun c => unlinkOneWay c peer) self = .ok () next ∧
      Stored registry next ∧ SameEnds self next ∧
      ∀ x y, next.Lists x y ↔ self.Lists x y ∧ ¬ (x ∈ connections ∧ y = peer) := by
  induction connections generalizing self with
  | nil => exact ⟨self, rfl, h, .refl self, by simp⟩
  | cons c rest ih =>
    obtain ⟨fresh, nodup⟩ := List.nodup_cons.mp nodup
    obtain ⟨mid, run, unlisted⟩ := unlinkOneWay_spec h (listed c List.mem_cons_self)
    obtain ⟨next, run', stored, same, lists⟩ := ih mid unlisted.stored nodup (fun c' member =>
      (unlisted.lists c' peer).mpr ⟨listed c' (List.mem_cons_of_mem _ member),
        fun both => fresh (both.1 ▸ member)⟩)
    refine ⟨next, ?_, stored, unlisted.same.trans same, fun x y => ?_⟩
    · show (unlinkOneWay c peer >>= fun _ => rest.forM fun c => unlinkOneWay c peer) self = _
      rw [Call.bind_ok run]
      exact run'
    · rw [lists, unlisted.lists, List.mem_cons]
      constructor
      · rintro ⟨⟨edge, first⟩, others⟩
        exact ⟨edge, fun both => both.1.elim (fun e => first ⟨e, both.2⟩)
          fun m => others ⟨m, both.2⟩⟩
      · rintro ⟨edge, none'⟩
        exact ⟨⟨edge, fun both => none' ⟨Or.inl both.1, both.2⟩⟩,
          fun both => none' ⟨Or.inr both.1, both.2⟩⟩

/-- Wire `id` goes, with every link at it. -/
structure WireRemoved (before after : Network F) (id : WireId) : Prop where
  live : ∃ slot, before.wireSlot id = some slot
  gone : after.wireSlot id = none
  length : after.wires.length = before.wires.length
  stays : ∀ other, other ≠ id → (after.wireSlot other).isSome = (before.wireSlot other).isSome
  devices : SameDevices before after
  lists : ∀ x y, after.Lists x y ↔ Isolate before.Lists (· = .wire id) x y

theorem removeWire_spec (h : Consistent registry self) (id : WireId) :
    (∃ next, removeWire id self = .ok () next ∧ Consistent registry next ∧
      WireRemoved self next id) ∨ ((∃ e, removeWire id self = .err e self) ∧ self.wireSlot id = none) := by
  rw [removeWire, Call.get_bind]
  by_cases outside : id.index ≥ self.wires.length
  · refine Or.inr ⟨⟨_, Call.rejectIf_bind_pos outside _⟩, ?_⟩
    rw [wireSlot, List.getElem?_eq_none outside]
    rfl
  rw [Call.rejectIf_bind_neg outside, Call.set_bind]
  have inside : id.index < self.wires.length := by omega
  have slots := wireSlot_setWire inside none
  cases live : self.wireSlot id with
  | none =>
    -- the slot was already empty, so taking it changed nothing
    have unchanged : self.setWire id none = self := by
      have read : self.wires[id.index]? = some none := by
        rw [wireSlot, List.getElem?_eq_getElem inside] at live
        rw [List.getElem?_eq_getElem inside]
        congr 1
      rw [setWire, set_of_getElem? read]
    rw [unchanged]
    exact Or.inr ⟨⟨_, rfl⟩, rfl⟩
  | some slot =>
    rw [Call.okOr_some_bind]
    have taken : ∀ x y, (self.setWire id none).Lists x y ↔ self.Lists x y ∧ x ≠ .wire id := by
      intro x y
      cases x with
      | wire other =>
        rw [Lists, slots, Lists]
        by_cases same : other = id
        · subst same
          simp
        · simp [same]
      | terminal device port fits => simp [Lists]
    have stored : Stored registry (self.setWire id none) := by
      refine ⟨h.arena, ?_, h.toWires⟩
      intro other found read
      rw [slots] at read
      split at read
      · simp at read
      · exact h.nodup other found read
    obtain ⟨next, run, stored', same, lists⟩ := unlink_all (.wire id) slot _ stored
      (h.nodup id slot live) (fun c member => (taken c _).mpr ⟨(h.wire_symm live c).mp member, by
        rintro rfl
        exact h.edges.irrefl _ ((h.wire_symm live _).mp member)⟩)
    have length : next.wires.length = self.wires.length := by
      rw [same.wires.length, setWire, List.length_set]
    have lists' : ∀ x y, next.Lists x y ↔ Isolate self.Lists (· = .wire id) x y := by
      intro x y
      rw [lists, taken, h.wire_symm live]
      constructor
      · rintro ⟨⟨edge, left⟩, none'⟩
        exact ⟨edge, left, fun right => none' ⟨right ▸ edge, right⟩⟩
      · rintro ⟨edge, left, right⟩
        exact ⟨⟨edge, left⟩, fun both => right both.2⟩
    have gone : next.wireSlot id = none := by
      have := same.wires.live id
      rw [slots, if_pos rfl] at this
      simpa using this
    have untouched : SameDevices self (self.setWire id none) := .of_arena rfl
    have devices := untouched.trans same.devices
    refine Or.inl ⟨next, run, ⟨stored', ?_, ?_, ?_⟩, ⟨slot, live⟩, gone, length, ?_, devices, lists'⟩
    · rw [length]
      exact h.wireBound
    · rw [DeviceArena.directoryLen, devices.directory]
      exact h.deviceBound
    · exact (h.edges.isolate _).congr lists'
    · intro other different
      rw [same.wires.live other, slots, if_neg different]

/-! ### Connecting and disconnecting wires -/

/-- The links between two ends are edited; the ends stay. -/
structure Relinked (registry : DefinitionRegistry F) (before after : Network F)
    (edges : ConnectionRef → ConnectionRef → Prop) : Prop where
  consistent : Consistent registry after
  same : SameEnds before after
  lists : ∀ x y, after.Lists x y ↔ edges x y

theorem Relinked.of_stored (h : Consistent registry self) (stored : Stored registry next)
    (same : SameEnds self next) {edges : ConnectionRef → ConnectionRef → Prop}
    (simple : SimpleEdges edges) (lists : ∀ x y, next.Lists x y ↔ edges x y) :
    Relinked registry self next edges := by
  refine ⟨⟨stored, ?_, ?_, simple.congr lists⟩, same, lists⟩
  · rw [same.wires.length]
    exact h.wireBound
  · rw [DeviceArena.directoryLen, same.devices.directory]
    exact h.deviceBound

theorem containsConnection_iff {slot : WireSlot} {c : ConnectionRef} :
    slot.containsConnection c = true ↔ c ∈ slot := decide_eq_true_iff

theorem connectWires_spec (h : Consistent registry self) (a b : WireId) :
    (∃ next, connectWires a b self = .ok () next ∧ a ≠ b ∧ self.Live (.wire a) ∧
      self.Live (.wire b) ∧ ¬ self.Lists (.wire a) (.wire b) ∧
      Relinked registry self next (Link self.Lists (.wire a) (.wire b))) ∨
      ∃ e, connectWires a b self = .err e self := by
  unfold connectWires
  by_cases same : a = b
  · exact Or.inr ⟨_, Call.rejectIf_bind_pos same _⟩
  rw [Call.rejectIf_bind_neg same, Call.get_bind]
  by_cases outA : a.index ≥ self.wires.length
  · exact Or.inr ⟨_, Call.rejectIf_bind_pos outA _⟩
  rw [Call.rejectIf_bind_neg outA]
  by_cases outB : b.index ≥ self.wires.length
  · exact Or.inr ⟨_, Call.rejectIf_bind_pos outB _⟩
  rw [Call.rejectIf_bind_neg outB]
  cases liveA : self.wireSlot a with
  | none => exact Or.inr ⟨_, rfl⟩
  | some aSlot =>
  cases liveB : self.wireSlot b with
  | none => exact Or.inr ⟨_, rfl⟩
  | some bSlot =>
  rw [Call.okOr_some_bind, Call.okOr_some_bind]
  by_cases connected : (aSlot.containsConnection (.wire b) || bSlot.containsConnection (.wire a)) = true
  · exact Or.inr ⟨_, Call.rejectIf_bind_pos connected _⟩
  rw [Call.rejectIf_bind_neg connected]
  simp only [Bool.or_eq_true, containsConnection_iff, not_or] at connected
  obtain ⟨nodupA, membersA⟩ := addConnection_spec (h.nodup a aSlot liveA) connected.1
  obtain ⟨nodupB, membersB⟩ := addConnection_spec (h.nodup b bSlot liveB) connected.2
  have different : b ≠ a := fun e => same e.symm
  have liveB' : (self.setWire a (some (aSlot.addConnection (.wire b)))).wireSlot b = some bSlot := by
    rw [wireSlot_setWire (by omega), if_neg different, liveB]
  refine Or.inl ⟨_, rfl, same, ⟨aSlot, liveA⟩, ⟨bSlot, liveB⟩, ?_, .of_stored h ?_ ?_ ?_ fun x y => ?_⟩
  · rintro ⟨slot, live, member⟩
    obtain rfl := Option.some.inj (liveA.symm.trans live)
    exact connected.1 member
  · exact (h.toStored.setWire liveA nodupA).setWire liveB' nodupB
  · exact (sameEnds_setWire liveA _).trans (sameEnds_setWire liveB' _)
  · exact h.edges.link (by simpa using same)
  · rw [lists_setWire liveB', lists_setWire liveA, Link, membersA, membersB]
    by_cases isB : x = .wire b
    · subst isB
      simp [Lists, liveB, different]
    · by_cases isA : x = .wire a
      · subst isA
        simp [Lists, liveA, same]
      · simp [isA, isB]

theorem disconnectWires_spec (h : Consistent registry self) (a b : WireId) :
    (∃ next, disconnectWires a b self = .ok () next ∧ a ≠ b ∧ self.Lists (.wire a) (.wire b) ∧
      Relinked registry self next (Unlink self.Lists (.wire a) (.wire b))) ∨
      ∃ e, disconnectWires a b self = .err e self := by
  unfold disconnectWires
  by_cases same : a = b
  · exact Or.inr ⟨_, Call.rejectIf_bind_pos same _⟩
  rw [Call.rejectIf_bind_neg same, Call.get_bind]
  by_cases outA : a.index ≥ self.wires.length
  · exact Or.inr ⟨_, Call.rejectIf_bind_pos outA _⟩
  rw [Call.rejectIf_bind_neg outA]
  by_cases outB : b.index ≥ self.wires.length
  · exact Or.inr ⟨_, Call.rejectIf_bind_pos outB _⟩
  rw [Call.rejectIf_bind_neg outB]
  cases liveA : self.wireSlot a with
  | none => exact Or.inr ⟨_, rfl⟩
  | some aSlot =>
  cases liveB : self.wireSlot b with
  | none => exact Or.inr ⟨_, rfl⟩
  | some bSlot =>
  rw [Call.okOr_some_bind, Call.okOr_some_bind]
  by_cases missing :
      (!aSlot.containsConnection (.wire b) || !bSlot.containsConnection (.wire a)) = true
  · exact Or.inr ⟨_, Call.rejectIf_bind_pos missing _⟩
  rw [Call.rejectIf_bind_neg missing]
  simp only [Bool.or_eq_true, Bool.not_eq_true', ← Bool.not_eq_true, containsConnection_iff, not_or,
    not_not] at missing
  obtain ⟨restA, runA, nodupA, membersA⟩ := removeConnection_spec (h.nodup a aSlot liveA) missing.1
  obtain ⟨restB, runB, nodupB, membersB⟩ := removeConnection_spec (h.nodup b bSlot liveB) missing.2
  rw [runA, runB]
  have different : b ≠ a := fun e => same e.symm
  have liveB' : (self.setWire a (some restA)).wireSlot b = some bSlot := by
    rw [wireSlot_setWire (by omega), if_neg different, liveB]
  refine Or.inl ⟨_, rfl, same, ⟨aSlot, liveA, missing.1⟩, .of_stored h ?_ ?_ ?_ fun x y => ?_⟩
  · exact (h.toStored.setWire liveA nodupA).setWire liveB' nodupB
  · exact (sameEnds_setWire liveA _).trans (sameEnds_setWire liveB' _)
  · exact h.edges.unlink _ _
  · rw [lists_setWire liveB', lists_setWire liveA, Unlink, membersA, membersB]
    by_cases isB : x = .wire b
    · subst isB
      simp [Lists, liveB, different]
    · by_cases isA : x = .wire a
      · subst isA
        simp [Lists, liveA, same]
      · simp [isA, isB]

end Network

end Hynergy
