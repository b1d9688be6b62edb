import Hynergy.Topology.IslandMerge
import Hynergy.Topology.IslandRepair

/-!
# What is invalidated

Between two ticks an island is either as it was or listed as dirty, and one that is gone is
listed as retired.
-/

namespace Hynergy

open Lib

variable {F : Type}

namespace WorldInvalidation

variable {self : WorldInvalidation} {island other : IslandId} {list : List IslandId}

theorem mem_pushNew : other ∈ pushNew list island ↔ other ∈ list ∨ other = island := by
  unfold pushNew
  split
  · constructor
    · exact Or.inl
    · intro either
      rcases either with there | same
      · exact there
      · subst same
        assumption
  · rw [List.mem_append, List.mem_singleton]

theorem mem_without : other ∈ without list island ↔ other ∈ list ∧ other ≠ island := by
  rw [without, List.mem_filter, decide_eq_true_iff]

@[simp] theorem retired_markTopologyDirty : (self.markTopologyDirty island).retired = self.retired := by
  unfold markTopologyDirty
  split <;> rfl

theorem mem_topologyDirty_markTopologyDirty (live : island ∉ self.retired) :
    other ∈ (self.markTopologyDirty island).topologyDirty ↔ other ∈ self.topologyDirty ∨ other = island := by
  unfold markTopologyDirty
  rw [if_neg live]
  exact mem_pushNew

theorem mem_numericalDirty_markTopologyDirty (live : island ∉ self.retired) :
    other ∈ (self.markTopologyDirty island).numericalDirty ↔
      other ∈ self.numericalDirty ∧ other ≠ island := by
  unfold markTopologyDirty
  rw [if_neg live]
  exact mem_without

theorem mem_bindingDirty_markTopologyDirty (live : island ∉ self.retired) :
    other ∈ (self.markTopologyDirty island).bindingDirty ↔ other ∈ self.bindingDirty ∧ other ≠ island := by
  unfold markTopologyDirty
  rw [if_neg live]
  exact mem_without

theorem mem_retired_markRetired :
    other ∈ (self.markRetired island).retired ↔ other ∈ self.retired ∨ other = island := mem_pushNew

theorem mem_topologyDirty_markRetired :
    other ∈ (self.markRetired island).topologyDirty ↔ other ∈ self.topologyDirty ∧ other ≠ island :=
  mem_without

theorem mem_numericalDirty_markRetired :
    other ∈ (self.markRetired island).numericalDirty ↔ other ∈ self.numericalDirty ∧ other ≠ island :=
  mem_without

theorem mem_bindingDirty_markRetired :
    other ∈ (self.markRetired island).bindingDirty ↔ other ∈ self.bindingDirty ∧ other ≠ island :=
  mem_without

end WorldInvalidation

namespace DerivedTopology

variable {registry : DefinitionRegistry F} {network : Network F} {self next : DerivedTopology}

/-- The dirty islands are live, and the retired ones are not and never will be. -/
structure InvalidationOk (topology : DerivedTopology) : Prop where
  topologyDirty : ∀ j ∈ topology.invalidation.topologyDirty, ∃ island, topology.islands.get j = some island
  numericalDirty : ∀ j ∈ topology.invalidation.numericalDirty, ∃ island, topology.islands.get j = some island
  bindingDirty : ∀ j ∈ topology.invalidation.bindingDirty, ∃ island, topology.islands.get j = some island
  retired : ∀ j ∈ topology.invalidation.retired,
    topology.islands.get j = none ∧ j.index < topology.islands.slotCount

theorem InvalidationOk.not_retired (h : InvalidationOk self) {j : IslandId} {island : IslandTopology}
    (live : self.islands.get j = some island) : j ∉ self.invalidation.retired := by
  intro member
  simp [(h.retired j member).1] at live

/-- Every island that changed is dirty or retired, and nothing dirty is forgotten. -/
structure Dirtied (before after : DerivedTopology) : Prop where
  slots : before.islands.slotCount ≤ after.islands.slotCount
  fresh : ∀ j island, after.islands.get j = some island → before.islands.get j = none →
    before.islands.slotCount ≤ j.index
  clean : ∀ j island, after.islands.get j = some island → j ∉ after.invalidation.topologyDirty →
    j ∉ before.invalidation.topologyDirty ∧
      ∃ old, before.islands.get j = some old ∧ old.components = island.components
  numerical : ∀ j ∈ before.invalidation.numericalDirty, after.islands.get j ≠ none →
    j ∈ after.invalidation.numericalDirty ∨ j ∈ after.invalidation.topologyDirty
  binding : ∀ j ∈ before.invalidation.bindingDirty, after.islands.get j ≠ none →
    j ∈ after.invalidation.bindingDirty ∨ j ∈ after.invalidation.topologyDirty
  retired : ∀ j ∈ before.invalidation.retired, j ∈ after.invalidation.retired
  gone : ∀ j island, before.islands.get j = some island → after.islands.get j = none →
    j ∈ after.invalidation.retired

theorem Dirtied.of_same (islands : next.islands = self.islands)
    (invalidation : next.invalidation = self.invalidation) : Dirtied self next := by
  refine ⟨by rw [islands], fun j island live dead => ?_, fun j island live off => ?_, fun j member _ => ?_,
    fun j member _ => ?_, fun j member => ?_, fun j island live dead => ?_⟩
  · rw [islands, dead] at live
    simp at live
  · rw [islands] at live
    rw [invalidation] at off
    exact ⟨off, island, live, rfl⟩
  · rw [invalidation]
    exact Or.inl member
  · rw [invalidation]
    exact Or.inl member
  · rw [invalidation]
    exact member
  · rw [islands, live] at dead
    simp at dead

theorem InvalidationOk.of_same (h : InvalidationOk self) (islands : next.islands = self.islands)
    (invalidation : next.invalidation = self.invalidation) : InvalidationOk next := by
  constructor <;> rw [islands, invalidation]
  · exact h.topologyDirty
  · exact h.numericalDirty
  · exact h.bindingDirty
  · exact h.retired

theorem Dirtied.trans {before mid after : DerivedTopology} (sound : before.islands.Sound)
    (ok : InvalidationOk before) (h : Dirtied before mid) (h' : Dirtied mid after) :
    Dirtied before after := by
  -- what was live before and is live now was live in between
  have between : ∀ j island, before.islands.get j = some island → after.islands.get j ≠ none →
      ∃ value, mid.islands.get j = some value := by
    intro j island live here
    by_contra dead
    have dead' : mid.islands.get j = none := by
      rw [Option.eq_none_iff_forall_ne_some]
      exact fun value held => dead ⟨value, held⟩
    obtain ⟨value, held⟩ := Option.ne_none_iff_exists'.mp here
    have new := h'.fresh j value held dead'
    have old := sound.index_lt live
    have := h.slots
    omega
  have stays : ∀ j, j ∈ mid.invalidation.topologyDirty → after.islands.get j ≠ none →
      j ∈ after.invalidation.topologyDirty := by
    intro j dirty here
    obtain ⟨value, held⟩ := Option.ne_none_iff_exists'.mp here
    by_contra off
    exact (h'.clean j value held off).1 dirty
  refine ⟨Nat.le_trans h.slots h'.slots, fun j island live dead => ?_, fun j island live off => ?_,
    fun j member here => ?_, fun j member here => ?_, fun j member => h'.retired j (h.retired j member),
    fun j island live dead => ?_⟩
  · cases held : mid.islands.get j with
    | none => exact Nat.le_trans h.slots (h'.fresh j island live held)
    | some value => exact h.fresh j value held dead
  · obtain ⟨off', old, held, same⟩ := h'.clean j island live off
    obtain ⟨off'', older, held', same'⟩ := h.clean j old held off'
    exact ⟨off'', older, held', same'.trans same⟩
  · obtain ⟨island, live⟩ := ok.numericalDirty j member
    obtain ⟨value, held⟩ := between j island live here
    rcases h.numerical j member (by simp [held]) with dirty | dirty
    · exact h'.numerical j dirty here
    · exact Or.inr (stays j dirty here)
  · obtain ⟨island, live⟩ := ok.bindingDirty j member
    obtain ⟨value, held⟩ := between j island live here
    rcases h.binding j member (by simp [held]) with dirty | dirty
    · exact h'.binding j dirty here
    · exact Or.inr (stays j dirty here)
  · cases held : mid.islands.get j with
    | none => exact h'.retired j (h.gone j island live held)
    | some value => exact h'.gone j value held dead

/-! ### Islands that are marked -/

/-- Live islands are marked: everything that is new or different is among them. -/
theorem dirtied_of_marks (ok : InvalidationOk self) (ids : List IslandId)
    (slots : self.islands.slotCount ≤ next.islands.slotCount)
    (fresh : ∀ j ∈ ids, self.islands.get j = none → self.islands.slotCount ≤ j.index)
    (live : ∀ j ∈ ids, ∃ island, next.islands.get j = some island)
    (others : ∀ j, j ∉ ids → next.islands.get j = self.islands.get j)
    (marks : next.invalidation = ids.foldl WorldInvalidation.markTopologyDirty self.invalidation) :
    Dirtied self next ∧ InvalidationOk next ∧ ∀ j ∈ ids, j ∈ next.invalidation.topologyDirty := by
  have notRetired : ∀ j ∈ ids, j ∉ self.invalidation.retired := by
    intro j member retired
    obtain ⟨dead, inside⟩ := ok.retired j retired
    have := fresh j member dead
    omega
  -- what a sequence of marks does to the lists
  have effect : ∀ (l : List IslandId) (inv : WorldInvalidation), (∀ j ∈ l, j ∉ inv.retired) →
      (l.foldl WorldInvalidation.markTopologyDirty inv).retired = inv.retired ∧
      (∀ j, j ∈ (l.foldl WorldInvalidation.markTopologyDirty inv).topologyDirty ↔
        j ∈ inv.topologyDirty ∨ j ∈ l) ∧
      (∀ j, j ∈ (l.foldl WorldInvalidation.markTopologyDirty inv).numericalDirty ↔
        j ∈ inv.numericalDirty ∧ j ∉ l) ∧
      ∀ j, j ∈ (l.foldl WorldInvalidation.markTopologyDirty inv).bindingDirty ↔
        j ∈ inv.bindingDirty ∧ j ∉ l := by
    intro l
    induction l with
    | nil => exact fun inv _ => ⟨rfl, by simp, by simp, by simp⟩
    | cons i l ih =>
      intro inv off
      have here := off i List.mem_cons_self
      obtain ⟨retired, topology, numerical, binding⟩ := ih (inv.markTopologyDirty i) fun j member => by
        rw [WorldInvalidation.retired_markTopologyDirty]
        exact off j (List.mem_cons_of_mem _ member)
      rw [List.foldl_cons]
      refine ⟨retired.trans WorldInvalidation.retired_markTopologyDirty, fun j => ?_, fun j => ?_, fun j => ?_⟩
      · rw [topology, WorldInvalidation.mem_topologyDirty_markTopologyDirty here, List.mem_cons, or_assoc]
      · rw [numerical, WorldInvalidation.mem_numericalDirty_markTopologyDirty here, List.mem_cons, not_or,
          and_assoc]
      · rw [binding, WorldInvalidation.mem_bindingDirty_markTopologyDirty here, List.mem_cons, not_or,
          and_assoc]
  obtain ⟨retired, topology, numerical, binding⟩ := effect ids self.invalidation notRetired
  rw [← marks] at retired topology numerical binding
  refine ⟨⟨slots, fun j island held dead => ?_, fun j island held off => ?_, fun j member _ => ?_,
    fun j member _ => ?_, fun j member => by rw [retired]; exact member, fun j island held dead => ?_⟩,
    ⟨fun j member => ?_, fun j member => ?_, fun j member => ?_, fun j member => ?_⟩,
    fun j member => (topology j).mpr (Or.inr member)⟩
  · by_cases member : j ∈ ids
    · exact fresh j member dead
    · rw [others j member, dead] at held
      simp at held
  · rw [topology, not_or] at off
    rw [others j off.2] at held
    exact ⟨off.1, island, held, rfl⟩
  · by_cases marked : j ∈ ids
    · exact Or.inr ((topology j).mpr (Or.inr marked))
    · exact Or.inl ((numerical j).mpr ⟨member, marked⟩)
  · by_cases marked : j ∈ ids
    · exact Or.inr ((topology j).mpr (Or.inr marked))
    · exact Or.inl ((binding j).mpr ⟨member, marked⟩)
  · by_cases member : j ∈ ids
    · obtain ⟨value, here⟩ := live j member
      simp [here] at dead
    · rw [others j member, held] at dead
      simp at dead
  · by_cases marked : j ∈ ids
    · exact live j marked
    · rw [others j marked]
      exact ok.topologyDirty j (((topology j).mp member).resolve_right marked)
  · obtain ⟨old, unmarked⟩ := (numerical j).mp member
    rw [others j unmarked]
    exact ok.numericalDirty j old
  · obtain ⟨old, unmarked⟩ := (binding j).mp member
    rw [others j unmarked]
    exact ok.bindingDirty j old
  · rw [retired] at member
    obtain ⟨dead, inside⟩ := ok.retired j member
    rw [others j fun marked => notRetired j marked member]
    exact ⟨dead, Nat.lt_of_lt_of_le inside slots⟩

/-- An island is removed and marked as retired. -/
theorem dirtied_of_retired (ok : InvalidationOk self) (sound : self.islands.Sound) {id : IslandId}
    {island : IslandTopology} (held : self.islands.get id = some island)
    (slots : self.islands.slotCount ≤ next.islands.slotCount) (gone : next.islands.get id = none)
    (others : ∀ j, j ≠ id → next.islands.get j = self.islands.get j)
    (marks : next.invalidation = self.invalidation.markRetired id) :
    Dirtied self next ∧ InvalidationOk next := by
  have kept : ∀ j value, next.islands.get j = some value → j ≠ id ∧ self.islands.get j = some value := by
    intro j value here
    have different : j ≠ id := by
      intro same
      rw [same, gone] at here
      simp at here
    exact ⟨different, (others j different).symm.trans here⟩
  refine ⟨⟨slots, fun j value here dead => ?_, fun j value here off => ?_,
    fun j member here => ?_, fun j member here => ?_, fun j member => ?_, fun j value here dead => ?_⟩,
    ⟨fun j member => ?_, fun j member => ?_, fun j member => ?_, fun j member => ?_⟩⟩
  · rw [(kept j value here).2] at dead
    simp at dead
  · obtain ⟨different, before⟩ := kept j value here
    rw [marks, WorldInvalidation.mem_topologyDirty_markRetired] at off
    exact ⟨fun dirty => off ⟨dirty, different⟩, value, before, rfl⟩
  · rw [marks]
    exact Or.inl (WorldInvalidation.mem_numericalDirty_markRetired.mpr
      ⟨member, fun same => here (same ▸ gone)⟩)
  · rw [marks]
    exact Or.inl (WorldInvalidation.mem_bindingDirty_markRetired.mpr
      ⟨member, fun same => here (same ▸ gone)⟩)
  · rw [marks]
    exact WorldInvalidation.mem_retired_markRetired.mpr (Or.inl member)
  · rw [marks]
    refine WorldInvalidation.mem_retired_markRetired.mpr (Or.inr ?_)
    by_contra different
    rw [others j different, here] at dead
    simp at dead
  · rw [marks] at member
    obtain ⟨dirty, different⟩ := WorldInvalidation.mem_topologyDirty_markRetired.mp member
    rw [others j different]
    exact ok.topologyDirty j dirty
  · rw [marks] at member
    obtain ⟨dirty, different⟩ := WorldInvalidation.mem_numericalDirty_markRetired.mp member
    rw [others j different]
    exact ok.numericalDirty j dirty
  · rw [marks] at member
    obtain ⟨dirty, different⟩ := WorldInvalidation.mem_bindingDirty_markRetired.mp member
    rw [others j different]
    exact ok.bindingDirty j dirty
  · rw [marks] at member
    rcases WorldInvalidation.mem_retired_markRetired.mp member with old | same
    · obtain ⟨dead, inside⟩ := ok.retired j old
      have different : j ≠ id := by
        intro same
        rw [same, held] at dead
        simp at dead
      rw [others j different]
      exact ⟨dead, Nat.lt_of_lt_of_le inside slots⟩
    · subst same
      exact ⟨gone, Nat.lt_of_lt_of_le (sound.index_lt held) slots⟩

/-! ### The edits of islands -/

theorem IslandRepaired.dirtied {bad : IslandId → Prop} {id : IslandId} {island : IslandTopology}
    (h : IslandRepaired bad registry network id island self next) (ok : InvalidationOk self)
    (sound : self.islands.Sound) (found : self.islands.get id = some island) :
    Dirtied self next ∧ InvalidationOk next ∧
      (id ∈ next.invalidation.topologyDirty ∨ next.islands.get id = none) := by
  rcases h.invalidation with ⟨gone, others, marks⟩ | ⟨ids, member, fresh, live, others, marks⟩
  · obtain ⟨dirtied, ok'⟩ := dirtied_of_retired ok sound found (h.slots ▸ Nat.le_add_right _ _) gone others marks
    exact ⟨dirtied, ok', Or.inr gone⟩
  · obtain ⟨dirtied, ok', dirty⟩ := dirtied_of_marks ok ids (h.slots ▸ Nat.le_add_right _ _)
      (fun j there dead => by
        rcases fresh j there with same | new
        · rw [same, found] at dead
          simp at dead
        · exact new) live others marks
    exact ⟨dirtied, ok', Or.inl (dirty id member)⟩

theorem Merged.dirtied {src dst : IslandId} {lost kept : IslandTopology}
    (h : Merged registry network src dst lost kept self next) (ok : InvalidationOk self)
    (sound : self.islands.Sound) (different : src ≠ dst) (heldSrc : self.islands.get src = some lost)
    (heldDst : self.islands.get dst = some kept) :
    Dirtied self next ∧ InvalidationOk next ∧ dst ∈ next.invalidation.topologyDirty := by
  obtain ⟨store, shrunk, changed⟩ := h.islands
  -- first the one is retired, then the other marked
  let mid : DerivedTopology := { self with
    islands := store, invalidation := self.invalidation.markRetired src }
  obtain ⟨first, okMid⟩ := @dirtied_of_retired self mid ok sound src lost heldSrc
    (Nat.le_of_eq shrunk.slots.symm) ((shrunk.get src).trans (if_pos rfl))
    (fun j other => (shrunk.get j).trans (if_neg other)) rfl
  have heldMid : mid.islands.get dst = some kept :=
    (shrunk.get dst).trans ((if_neg different.symm).trans heldDst)
  obtain ⟨second, ok', dirty⟩ := @dirtied_of_marks mid next okMid [dst] (Nat.le_of_eq changed.slots.symm)
    (fun j member dead => by
      rw [List.mem_singleton.mp member, heldMid] at dead
      simp at dead)
    (fun j member => by
      rw [List.mem_singleton.mp member]
      exact ⟨_, (changed.get dst).trans (if_pos rfl)⟩)
    (fun j missing => (changed.get j).trans (if_neg (by simpa using missing)))
    h.invalidation
  exact ⟨first.trans sound ok second, ok', dirty dst (List.mem_singleton.mpr rfl)⟩

/-- One live island is edited and marked. -/
theorem dirtied_of_modified (ok : InvalidationOk self) {id : IslandId} {old new : IslandTopology}
    (held : self.islands.get id = some old)
    (changed : DenseIdStore.Changed self.islands next.islands id new)
    (marks : next.invalidation = self.invalidation.markTopologyDirty id) :
    Dirtied self next ∧ InvalidationOk next ∧ id ∈ next.invalidation.topologyDirty := by
  obtain ⟨dirtied, ok', dirty⟩ := dirtied_of_marks ok [id] (Nat.le_of_eq changed.slots.symm)
    (fun j member dead => by
      rw [List.mem_singleton.mp member, held] at dead
      simp at dead)
    (fun j member => by
      rw [List.mem_singleton.mp member]
      exact ⟨new, (changed.get id).trans (if_pos rfl)⟩)
    (fun j missing => (changed.get j).trans (if_neg (by simpa using missing))) marks
  exact ⟨dirtied, ok', dirty id (List.mem_singleton.mpr rfl)⟩

end DerivedTopology

end Hynergy
