import Hynergy.Topology.Maintained

/-!
# Marking the islands of a device

A changed parameter and a moved row mark the device's islands; nets and islands stay.
-/

namespace Hynergy

open Lib

variable {F : Type}

namespace WorldInvalidation

variable {self : WorldInvalidation} {list : List IslandId}

/-- Marks that leave a structural mark as it is. -/
structure Marks (before after : WorldInvalidation) : Prop where
  topologyDirty : after.topologyDirty = before.topologyDirty
  retired : after.retired = before.retired
  numericalDirty : ∀ j ∈ before.numericalDirty, j ∈ after.numericalDirty
  bindingDirty : ∀ j ∈ before.bindingDirty, j ∈ after.bindingDirty

theorem Marks.refl : Marks self self := ⟨rfl, rfl, fun _ => id, fun _ => id⟩

theorem Marks.trans {mid next : WorldInvalidation} (h : Marks self mid) (h' : Marks mid next) :
    Marks self next :=
  ⟨h'.topologyDirty.trans h.topologyDirty, h'.retired.trans h.retired,
    fun j member => h'.numericalDirty j (h.numericalDirty j member),
    fun j member => h'.bindingDirty j (h.bindingDirty j member)⟩

/-- What one kind of mark does: it puts the island on the list `kind`. -/
structure Marking (mark : WorldInvalidation → IslandId → WorldInvalidation)
    (kind : WorldInvalidation → List IslandId) : Prop where
  marks : ∀ invalidation island, Marks invalidation (mark invalidation island)
  mono : ∀ before after, Marks before after → ∀ j ∈ kind before, j ∈ kind after
  numerical : ∀ invalidation island, ∀ j ∈ (mark invalidation island).numericalDirty,
    j ∈ invalidation.numericalDirty ∨ j = island
  binding : ∀ invalidation island, ∀ j ∈ (mark invalidation island).bindingDirty,
    j ∈ invalidation.bindingDirty ∨ j = island
  here : ∀ invalidation island, island ∉ invalidation.retired →
    island ∈ kind (mark invalidation island) ∨ island ∈ (mark invalidation island).topologyDirty

theorem numericalMarking : Marking markNumericalDirty numericalDirty := by
  refine ⟨fun invalidation island => ?_, fun _ _ marks => marks.numericalDirty, fun invalidation island j member => ?_,
    fun invalidation island j member => ?_, fun invalidation island live => ?_⟩
  all_goals unfold markNumericalDirty at *
  · split
    · exact .refl
    · exact ⟨rfl, rfl, fun j member => mem_pushNew.mpr (Or.inl member), fun _ => id⟩
  · split at member
    · exact Or.inl member
    · exact mem_pushNew.mp member
  · split at member <;> exact Or.inl member
  · split
    · rename_i marked
      exact Or.inr (marked.resolve_left live)
    · exact Or.inl (mem_pushNew.mpr (Or.inr rfl))

theorem bindingMarking : Marking markBindingDirty bindingDirty := by
  refine ⟨fun invalidation island => ?_, fun _ _ marks => marks.bindingDirty, fun invalidation island j member => ?_,
    fun invalidation island j member => ?_, fun invalidation island live => ?_⟩
  all_goals unfold markBindingDirty at *
  · split
    · exact .refl
    · exact ⟨rfl, rfl, fun _ => id, fun j member => mem_pushNew.mpr (Or.inl member)⟩
  · split at member <;> exact Or.inl member
  · split at member
    · exact Or.inl member
    · exact mem_pushNew.mp member
  · split
    · rename_i marked
      exact Or.inr (marked.resolve_left live)
    · exact Or.inl (mem_pushNew.mpr (Or.inr rfl))

/-- A row of islands is marked. -/
theorem Marking.foldl {mark : WorldInvalidation → IslandId → WorldInvalidation}
    {kind : WorldInvalidation → List IslandId} (m : Marking mark kind) :
    Marks self (list.foldl mark self) ∧
      (∀ j ∈ (list.foldl mark self).numericalDirty, j ∈ self.numericalDirty ∨ j ∈ list) ∧
      (∀ j ∈ (list.foldl mark self).bindingDirty, j ∈ self.bindingDirty ∨ j ∈ list) ∧
      ∀ j ∈ list, j ∉ self.retired → j ∈ kind (list.foldl mark self) ∨ j ∈ (list.foldl mark self).topologyDirty := by
  induction list generalizing self with
  | nil => exact ⟨.refl, fun j => Or.inl, fun j => Or.inl, fun j member => absurd member List.not_mem_nil⟩
  | cons i list ih =>
    obtain ⟨marks, numerical, binding, here⟩ := @ih (mark self i)
    have first := m.marks self i
    rw [List.foldl_cons]
    refine ⟨first.trans marks, fun j member => ?_, fun j member => ?_, fun j member live => ?_⟩
    · rcases numerical j member with before | later
      · exact (m.numerical self i j before).imp_right fun same => List.mem_cons.mpr (Or.inl same)
      · exact Or.inr (List.mem_cons_of_mem _ later)
    · rcases binding j member with before | later
      · exact (m.binding self i j before).imp_right fun same => List.mem_cons.mpr (Or.inl same)
      · exact Or.inr (List.mem_cons_of_mem _ later)
    · rcases List.mem_cons.mp member with rfl | later
      · rcases m.here self j live with dirty | dirty
        · exact Or.inl (m.mono _ _ marks j dirty)
        · exact Or.inr (by rw [marks.topologyDirty]; exact dirty)
      · exact here j later (by rw [first.retired]; exact live)

end WorldInvalidation

namespace DerivedTopology

variable {registry : DefinitionRegistry F} {network network' : Network F} {self next : DerivedTopology}

open WorldInvalidation (Marks)

/-- Marks on live islands. -/
theorem InvalidationOk.marked (ok : InvalidationOk self) {invalidation : WorldInvalidation}
    (marks : Marks self.invalidation invalidation)
    (numerical : ∀ j ∈ invalidation.numericalDirty, j ∈ self.invalidation.numericalDirty ∨
      ∃ island, self.islands.get j = some island)
    (binding : ∀ j ∈ invalidation.bindingDirty, j ∈ self.invalidation.bindingDirty ∨
      ∃ island, self.islands.get j = some island) :
    InvalidationOk { self with invalidation } ∧ Dirtied self { self with invalidation } := by
  constructor
  · refine ⟨fun j member => ?_, fun j member => ?_, fun j member => ?_, fun j member => ?_⟩
    · exact ok.topologyDirty j (marks.topologyDirty ▸ member)
    · rcases numerical j member with before | live
      · exact ok.numericalDirty j before
      · exact live
    · rcases binding j member with before | live
      · exact ok.bindingDirty j before
      · exact live
    · exact ok.retired j (marks.retired ▸ member)
  · refine ⟨Nat.le_refl _, fun j island live dead => ?_, fun j island live off => ?_, fun j member _ => ?_,
      fun j member _ => ?_, fun j member => ?_, fun j island live dead => ?_⟩
    · simp [show self.islands.get j = some island from live] at dead
    · exact ⟨fun dirty => off (marks.topologyDirty.symm ▸ dirty), island, live, rfl⟩
    · exact Or.inl (marks.numericalDirty j member)
    · exact Or.inl (marks.bindingDirty j member)
    · exact marks.retired.symm ▸ member
    · simp [show self.islands.get j = none from dead] at live

/-- Every island of a device's row is live. -/
theorem Maintained.live_of_islandsOf (h : Maintained registry network self) (partitioned : registry.Partitioned)
    {device : DeviceId} {islands : List IslandId} (found : self.islandsOf network device = some islands)
    {i : IslandId} (member : i ∈ islands) :
    ∃ p island, self.islandOf network ⟨device, p⟩ = some i ∧ self.islands.get i = some island := by
  obtain ⟨k, read⟩ := List.mem_iff_getElem?.mp member
  have here := h.islands.beside.aligned.rowOf_isSome h.islands.beside.arena device
  rw [show Sidecar.rowOf self.deviceChunks network.deviceArena device = some islands from found] at here
  obtain ⟨row, record⟩ := Option.isSome_iff_exists.mp here.symm
  obtain ⟨definition, known, defined, -, -⟩ := Network.definition_of_record h.consistent.toStored record
  have small : k < 2 ^ 16 := by
    have := (partitioned _ _ known).bounded
    have := h.islands.beside.length_islandsOf found defined
    have := (List.getElem?_eq_some_iff.mp read).1
    omega
  have on : self.islandOf network ⟨device, ⟨k, small⟩⟩ = some i := by
    rw [islandOf, found, Option.bind_some]
    exact read
  obtain ⟨island, held, -⟩ := h.islands.named _ i on
  exact ⟨_, island, on, held⟩

/-- The islands `islands` were marked, by marks of one kind. -/
structure RowMarked (registry : DefinitionRegistry F) (network : Network F)
    (kind : WorldInvalidation → List IslandId) (islands : List IslandId) (before after : DerivedTopology) :
    Prop where
  maintained : Maintained registry network after
  dirtied : Dirtied before after
  marks : Marks before.invalidation after.invalidation
  rest : after = { before with invalidation := after.invalidation }
  marked : ∀ i ∈ islands, i ∈ kind after.invalidation ∨ i ∈ after.invalidation.topologyDirty

/-- A device's row is marked. -/
theorem rowMarked {mark : WorldInvalidation → IslandId → WorldInvalidation}
    {kind : WorldInvalidation → List IslandId} (m : WorldInvalidation.Marking mark kind)
    (h : Maintained registry network self) (partitioned : registry.Partitioned) {device : DeviceId}
    {islands : List IslandId} (found : self.islandsOf network device = some islands) :
    RowMarked registry network kind islands self
      { self with invalidation := islands.foldl mark self.invalidation } := by
  obtain ⟨marks, numerical, binding, marked⟩ := @m.foldl self.invalidation islands
  have live : ∀ i ∈ islands, ∃ island, self.islands.get i = some island := by
    intro i member
    obtain ⟨-, island, -, held⟩ := h.live_of_islandsOf partitioned found member
    exact ⟨island, held⟩
  obtain ⟨ok, dirtied⟩ := h.invalidation.marked marks (fun j member => (numerical j member).imp_right (live j))
    fun j member => (binding j member).imp_right (live j)
  refine ⟨⟨h.consistent, h.nets.of_nets rfl rfl, h.islands.marked _, ok⟩, dirtied, marks, rfl,
    fun i member => marked i member ?_⟩
  obtain ⟨island, held⟩ := live i member
  exact h.invalidation.not_retired held

theorem markDeviceNumericalDirty_spec (h : Maintained registry network self) (partitioned : registry.Partitioned)
    {device : DeviceId} {row : DeviceRow F} (record : network.record device = some row) :
    ∃ islands next, self.islandsOf network device = some islands ∧
      self.markDeviceNumericalDirty network device = some next ∧
      RowMarked registry network WorldInvalidation.numericalDirty islands self next := by
  obtain ⟨islands, found⟩ := h.islands.beside.islandsOf_isSome record
  refine ⟨islands, _, found, ?_, rowMarked WorldInvalidation.numericalMarking h partitioned found⟩
  rw [markDeviceNumericalDirty, bind_of_eq_some (h.islands.beside.rowIslands_eq found)]

theorem markDeviceBindingDirty_spec (h : Maintained registry network self) (partitioned : registry.Partitioned)
    {device : DeviceId} {row : DeviceRow F} (record : network.record device = some row) :
    ∃ islands next, self.islandsOf network device = some islands ∧
      self.markDeviceBindingDirty network device = some next ∧
      RowMarked registry network WorldInvalidation.bindingDirty islands self next := by
  obtain ⟨islands, found⟩ := h.islands.beside.islandsOf_isSome record
  refine ⟨islands, _, found, ?_, rowMarked WorldInvalidation.bindingMarking h partitioned found⟩
  rw [markDeviceBindingDirty, bind_of_eq_some (h.islands.beside.rowIslands_eq found)]

/-! ### Setting a parameter -/

variable [F64 F]

theorem setParameter_maintains (partitioned : registry.Partitioned) (h : Maintained registry network self)
    {device : DeviceId} {parameter : ParameterId} {value : F} {row : DeviceRow F}
    (consistent : network'.Consistent registry)
    (set : Network.ParameterSet registry network network' device parameter value row) :
    ∃ next, self.markDeviceNumericalDirty network' device = some next ∧
      Maintains registry network network' self next ∧ ∃ islands, self.islandsOf network device = some islands ∧
        ∀ i ∈ islands, i ∈ next.invalidation.numericalDirty ∨ i ∈ next.invalidation.topologyDirty := by
  have record : ∀ other, network'.record other =
      if other = device then some { row with parameters := row.parameters.set parameter.index value }
      else network.record other := by
    intro other
    split
    · rename_i same
      rw [same]
      exact set.edited.written
    · exact set.edited.kept other ‹_›
  have places : Network.SamePlaces network network' := by
    refine ⟨set.edited.directory, set.edited.heads, fun other => ?_, fun other => ?_⟩
    · rw [Network.definitionIdAt, record, Network.definitionIdAt]
      split
      · rename_i same
        rw [same, set.found]
        rfl
      · rfl
    · rw [Network.terminalCount, record, Network.terminalCount]
      split
      · rename_i same
        rw [same, set.found]
        rfl
      · rfl
  have same : Network.SameAttachments network network' :=
    .of_lists h.consistent consistent places fun _ _ _ _ => set.lists _ _
  have live : ∀ wire, (network'.wireSlot wire).isSome = (network.wireSlot wire).isSome := by
    intro wire
    rw [Network.wireSlot, Network.wireSlot, set.wires]
  have rel : network'.WireEdge = network.WireEdge := by
    funext u v
    exact propext (set.lists _ _)
  have dom : network'.LiveWire = network.LiveWire := by
    funext wire
    rw [Network.LiveWire, Network.LiveWire, live]
  have moved : Maintained registry network' self := by
    refine ⟨consistent, h.nets.relink (fun _ never => never) live same (rel ▸ h.nets.coarse) ?_,
      h.islands.congr consistent places.directory places.heads rfl rfl h.islands.map (fun _ => rfl)
        (fun id gone => h.islands.removed id gone) fun _ _ => Iff.rfl, h.invalidation⟩
    intro id fine
    rw [dom, rel]
    exact h.nets.exact id fine
  obtain ⟨islands, next, found, run, marked⟩ := markDeviceNumericalDirty_spec moved partitioned set.edited.written
  refine ⟨next, run, ⟨marked.maintained, marked.dirtied, fun j island _ _ c _ => ?_⟩, islands, ?_, marked.marked⟩
  · rw [marked.rest]
    exact .of_elsewhere h (places.definitions _) (fun t free => by rw [same.attached, free])
      fun t wire id attached on _ => ⟨by rw [same.attached, attached], on⟩
  · rw [← found, islandsOf, islandsOf]
    exact (congrFun (h.islands.beside.aligned.congr places.directory places.heads).2 device).symm

end DerivedTopology

end Hynergy
