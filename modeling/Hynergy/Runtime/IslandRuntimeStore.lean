import Hynergy.Topology.StoreRuns

/-!
# The runtimes of islands

The runtimes lie densely beside their islands' ids; a table over the ids holds their positions. Its
reads and removals are those of a store with stable ids.
-/

namespace Hynergy

open Lib Relation

/-- Over any type of runtimes. -/
structure IslandRuntimeStore (R : Type) where
  positions : List (Option Nat) := []
  entries : List (IslandId × R) := []

namespace IslandRuntimeStore

variable {R : Type} {self next : IslandRuntimeStore R} {id : IslandId}

def encodeDensePosition (denseIndex : Nat) : Option Nat :=
  if denseIndex + 1 < 2 ^ 32 then some (denseIndex + 1) else none

def denseIndex (self : IslandRuntimeStore R) (id : IslandId) : Option Nat :=
  self.positions[id.index]?.join.map (· - 1)

def get (self : IslandRuntimeStore R) (id : IslandId) : Option R := do
  let dense ← self.denseIndex id
  let entry ← self.entries[dense]?
  some entry.2

/-- `insert(id, runtime)` with the runtime it replaces; `none` is a panic. -/
def insert (self : IslandRuntimeStore R) (id : IslandId) (runtime : R) : Option (Option R × IslandRuntimeStore R) :=
  match self.denseIndex id with
  | some dense => do
    let entry ← self.entries[dense]?
    some (some entry.2, { self with entries := self.entries.set dense (entry.1, runtime) })
  | none => do
    let slot := id.index
    let requiredLen := slot + 1
    -- `resize_with`, only where the table is too short
    let positions := self.positions ++ List.replicate (requiredLen - self.positions.length) none
    let densePosition ← encodeDensePosition self.entries.length
    let positions ← assign positions slot (some densePosition)
    some (none, { positions, entries := self.entries ++ [(id, runtime)] })

/-- `remove(id)`; `none` where there is no runtime. -/
def remove (self : IslandRuntimeStore R) (id : IslandId) : Option (R × IslandRuntimeStore R) := do
  let dense ← self.denseIndex id
  let removed ← self.entries[dense]?
  let entries := swapRemove self.entries dense
  let positions := self.positions.set id.index none
  if dense < entries.length then do
    let moved ← entries[dense]?
    let position ← encodeDensePosition dense
    let positions ← assign positions moved.1.index (some position)
    some (removed.2, { positions, entries })
  else some (removed.2, { positions, entries })

/-! ### As a store with stable ids -/

def toDense (self : IslandRuntimeStore R) : DenseIdStore .island R where
  slots := self.positions
  denseIds := self.entries.map Prod.fst
  values := self.entries.map Prod.snd

theorem toDense_get : self.toDense.get id = self.get id := by
  show ((self.denseIndex id).bind fun dense => (self.entries.map Prod.snd)[dense]?) = _
  unfold get
  cases self.denseIndex id with
  | none => rfl
  | some dense =>
    rw [Option.bind_some, List.getElem?_map, Option.bind_eq_bind, Option.bind_some]
    cases self.entries[dense]? <;> rfl

theorem toDense_remove :
    self.toDense.remove id = (self.remove id).map fun result => (result.1, result.2.toDense) := by
  unfold DenseIdStore.remove remove
  rw [show self.toDense.denseIndex id = self.denseIndex id from rfl]
  cases self.denseIndex id with
  | none => rfl
  | some dense =>
    have values : self.toDense.values = self.entries.map Prod.snd := rfl
    have ids : self.toDense.denseIds = self.entries.map Prod.fst := rfl
    simp only [Option.bind_eq_bind, Option.bind_some, values, ids, List.getElem?_map, ← map_swapRemove, List.length_map]
    cases self.entries[dense]? with
    | none => rfl
    | some removed =>
      simp only [Option.map_some, Option.bind_some]
      split
      · cases (swapRemove self.entries dense)[dense]? with
        | none => rfl
        | some moved =>
          simp only [Option.map_some, Option.bind_some]
          rw [show encodeDensePosition dense = DenseIdStore.encodeDenseIndex dense from rfl]
          cases DenseIdStore.encodeDenseIndex dense with
          | none => rfl
          | some position =>
            simp only [Option.bind_some]
            rw [show self.toDense.slots = self.positions from rfl]
            cases assign (self.positions.set id.index none) moved.1.index (some position) <;> rfl
      · rfl

/-! ### Insertion -/

/-- There are no more ids than slots. -/
theorem length_le_of_nodup {ids : List IslandId} {slots : Nat} (nodup : ids.Nodup)
    (inside : ∀ id ∈ ids, id.index < slots) : ids.length ≤ slots := by
  have distinct : (ids.map NonZeroId.index).Nodup := nodup.map fun a b same => NonZeroId.index_inj.mp same
  have listed : ids.map NonZeroId.index ⊆ List.range slots := by
    intro slot member
    obtain ⟨id, there, rfl⟩ := List.mem_map.mp member
    exact List.mem_range.mpr (inside id there)
  have few := (List.subperm_of_subset distinct listed).length_le
  rwa [List.length_map, List.length_range] at few

/-- `runtime` is under `id`, and nothing else changed. -/
structure Put (before after : IslandRuntimeStore R) (id : IslandId) (runtime : R) : Prop where
  sound : after.toDense.Sound
  get : ∀ other, after.get other = if other = id then some runtime else before.get other

theorem mem_entries (h : self.toDense.Sound) {runtime : R} : (id, runtime) ∈ self.entries ↔ self.get id = some runtime := by
  have pairs : self.toDense.iter = self.entries := (List.zip_map' ..).trans (List.map_id _)
  rw [← toDense_get, ← h.mem_iter, pairs]

/-- No id is absent and has a position. -/
theorem unheld (h : self.toDense.Sound) (absent : self.get id = none) : self.denseIndex id = none :=
  (h.remove_eq_none (toDense_get.trans absent)).1

/-- A runtime is replaced where it lies. -/
theorem insert_known (h : self.toDense.Sound) {old : R} (found : self.get id = some old) (runtime : R) :
    ∃ next, self.insert id runtime = some (some old, next) ∧ Put self next id runtime := by
  rw [← toDense_get] at found
  obtain ⟨dense, held, lies, read, inside⟩ := h.position found
  obtain ⟨entry, there, rfl⟩ := Option.map_eq_some_iff.mp ((List.getElem?_map ..).symm.trans read)
  have key : entry.1 = id := by
    have first : (self.entries.map Prod.fst)[dense]? = some id := lies
    rw [List.getElem?_map, there] at first
    exact Option.some.inj first
  obtain ⟨next, run, changed⟩ := DenseIdStore.modify_spec h found fun _ => runtime
  let after : IslandRuntimeStore R := { self with entries := self.entries.set dense (entry.1, runtime) }
  have same : after.toDense = next := by
    have ids : (self.entries.set dense (entry.1, runtime)).map Prod.fst = self.entries.map Prod.fst := by
      rw [List.map_set, set_of_getElem? (by rw [List.getElem?_map, there]; rfl)]
    have edited : self.toDense.modify id (fun _ => runtime) = some after.toDense := by
      unfold DenseIdStore.modify
      rw [bind_of_eq_some held, bind_of_eq_some read]
      simp only [toDense, after, ids, List.map_set]
    exact Option.some.inj (edited.symm.trans run)
  refine ⟨after, ?_, same ▸ changed.sound, fun other => ?_⟩
  · unfold insert
    rw [show self.denseIndex id = some dense from held]
    dsimp only
    rw [there]
    rfl
  · rw [← toDense_get, same, changed.get, toDense_get]

/-- A new runtime lies at the end. -/
theorem insert_new (h : self.toDense.Sound) (absent : self.get id = none) (runtime : R) :
    ∃ next, self.insert id runtime = some (none, next) ∧ Put self next id runtime := by
  have unheld := unheld h absent
  have small := id.index_lt
  have bounded : self.positions.length < 2 ^ 32 := h.bounded
  let grown := self.positions ++ List.replicate (id.index + 1 - self.positions.length) none
  have length : grown.length = max self.positions.length (id.index + 1) := by
    rw [List.length_append, List.length_replicate]
    omega
  have inside : id.index < grown.length := by
    rw [length]
    omega
  have unlisted : id ∉ self.toDense.denseIds := by
    intro member
    obtain ⟨value, found⟩ := h.mem_denseIds.mp member
    rw [toDense_get, absent] at found
    cases found
  have kept (other : IslandId) : grown[other.index]?.join = self.positions[other.index]?.join := by
    rw [List.getElem?_append]
    split
    · rfl
    · rename_i beyond
      rw [List.getElem?_eq_none (Nat.not_lt.mp beyond), List.getElem?_replicate]
      split <;> rfl
  have count : self.toDense.denseIds.length = self.entries.length := List.length_map ..
  have packed : self.entries.length + 1 ≤ grown.length := by
    have few : (id :: self.toDense.denseIds).length ≤ grown.length := by
      refine length_le_of_nodup (List.nodup_cons.mpr ⟨unlisted, h.nodup⟩) fun other member => ?_
      rcases List.mem_cons.mp member with rfl | member
      · exact inside
      · obtain ⟨value, found⟩ := h.mem_denseIds.mp member
        have := h.index_lt found
        have there : other.index < self.positions.length := this
        rw [length]
        omega
    rwa [List.length_cons, count] at few
  have fits : encodeDensePosition self.entries.length = some (self.entries.length + 1) := if_pos (by omega)
  let after : IslandRuntimeStore R :=
    ⟨grown.set id.index (some (self.entries.length + 1)), self.entries ++ [(id, runtime)]⟩
  have run : self.insert id runtime = some (none, after) := by
    unfold insert
    rw [unheld]
    dsimp only
    rw [bind_of_eq_some fits, bind_of_eq_some (assign_of_lt inside _)]
  have slots (other : IslandId) : after.positions[other.index]?.join =
      if other = id then some (self.entries.length + 1) else self.positions[other.index]?.join := by
    by_cases same : other = id
    · rw [if_pos same, same, List.getElem?_set_self inside]
      rfl
    · rw [if_neg same, List.getElem?_set_ne fun at' => same (NonZeroId.index_inj.mp at').symm, kept]
  have ids : after.toDense.denseIds = self.toDense.denseIds ++ [id] := List.map_append
  have sound : after.toDense.Sound := by
    refine ⟨?_, fun other p => ?_, ?_, ?_⟩
    · show (after.entries.map Prod.snd).length = (after.entries.map Prod.fst).length
      rw [List.length_map, List.length_map]
    · rw [ids, DenseIdStore.getElem?_concat_iff unlisted]
      refine (iff_of_eq (congrArg (· = some p) (slots other))).trans ?_
      split
      · rw [count, Option.some.injEq]
        omega
      · exact h.placed other p
    · rw [ids, List.length_append, List.length_singleton, count]
      show _ ≤ (grown.set id.index _).length
      rw [List.length_set]
      exact packed
    · show (grown.set id.index _).length < 2 ^ 32
      rw [List.length_set, length]
      omega
  refine ⟨after, run, sound, fun other => Option.ext fun value => ?_⟩
  rw [← mem_entries sound]
  show (other, value) ∈ self.entries ++ [(id, runtime)] ↔ _
  rw [List.mem_append, List.mem_singleton, mem_entries h, Prod.mk.injEq]
  by_cases same : other = id
  · simp [same, absent, eq_comm]
  · simp [same]

/-! ### Runs -/

theorem insert_returns (h : self.toDense.Sound) (id : IslandId) (runtime : R) :
    ∃ next, self.insert id runtime = some (self.get id, next) ∧ Put self next id runtime := by
  cases found : self.get id with
  | none => exact insert_new h found runtime
  | some old => exact insert_known h found runtime

/-- A call that changes the store. -/
inductive Step : IslandRuntimeStore R → IslandRuntimeStore R → Prop
  | insert {a b : IslandRuntimeStore R} {id : IslandId} {runtime : R} {old : Option R}
      (run : a.insert id runtime = some (old, b)) : Step a b
  | remove {a b : IslandRuntimeStore R} {id : IslandId} {runtime : R} (run : a.remove id = some (runtime, b)) : Step a b

theorem remove_eq_some (h : self.toDense.Sound) {runtime : R} (run : self.remove id = some (runtime, next)) :
    self.get id = some runtime ∧ self.toDense.Shrunk next.toDense id := by
  have dense : self.toDense.remove id = some (runtime, next.toDense) := by
    rw [toDense_remove, run]
    rfl
  obtain ⟨found, shrunk⟩ := DenseIdStore.remove_eq_some h dense
  exact ⟨toDense_get ▸ found, shrunk⟩

theorem Step.sound (step : Step self next) (h : self.toDense.Sound) : next.toDense.Sound := by
  cases step with
  | @insert id runtime _ run =>
    obtain ⟨after, run', put⟩ := insert_returns h id runtime
    obtain ⟨-, rfl⟩ := Prod.mk.inj (Option.some.inj (run'.symm.trans run))
    exact put.sound
  | remove run => exact (remove_eq_some h run).2.sound

/-- In every run the positions and the entries correspond, an insertion returns, and a removal leaves every other
runtime. -/
theorem runtimes_stable (reached : ReflTransGen Step {} self) :
    self.toDense.Paired ∧
      (∀ id runtime, ∃ next, self.insert id runtime = some (self.get id, next) ∧
        ∀ other, next.get other = if other = id then some runtime else self.get other) ∧
      ∀ id runtime, self.get id = some runtime → ∃ next, self.remove id = some (runtime, next) ∧
        ∀ other, next.get other = if other = id then none else self.get other := by
  have sound : self.toDense.Sound := by
    induction reached with
    | refl => exact DenseIdStore.sound_empty
    | tail _ step ih => exact step.sound ih
  refine ⟨sound.paired, fun id runtime => ?_, fun id runtime found => ?_⟩
  · obtain ⟨next, run, put⟩ := insert_returns sound id runtime
    exact ⟨next, run, put.get⟩
  · rw [← toDense_get] at found
    obtain ⟨dense, run, shrunk⟩ := DenseIdStore.remove_spec sound found
    rw [toDense_remove] at run
    obtain ⟨⟨removed, next⟩, removes, same⟩ := Option.map_eq_some_iff.mp run
    obtain ⟨rfl, rfl⟩ := Prod.mk.inj same
    refine ⟨next, removes, fun other => ?_⟩
    rw [← toDense_get, shrunk.get, toDense_get]

end IslandRuntimeStore

end Hynergy
