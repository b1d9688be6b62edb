import Hynergy.Topology.Store
import Mathlib.Logic.Relation

/-!
# Runs of a store

In every run of insertions, edits and removals the slots and the dense positions correspond, and no id
is given out twice.
-/

namespace Hynergy

open Lib Relation

namespace DenseIdStore

variable {kind : NonZeroIdKind} {α : Type} {self next : DenseIdStore kind α} {issued : List (NonZeroId kind)}

/-- The slots that hold a position and the dense positions are inverse to each other. -/
structure Paired (store : DenseIdStore kind α) : Prop where
  values : store.values.length = store.denseIds.length
  placed : ∀ slot p, store.slots[slot]? = some (some p) →
    ∃ id : NonZeroId kind, id.index = slot ∧ 0 < p ∧ store.denseIds[p - 1]? = some id
  held : ∀ (dense : Nat) id, store.denseIds[dense]? = some id → store.slots[id.index]? = some (some (dense + 1))

theorem Sound.paired (h : Sound self) : self.Paired := by
  refine ⟨h.values, fun slot p read => ?_, fun dense id lies => ?_⟩
  · have bounded := h.bounded
    have inside := (List.getElem?_eq_some_iff.mp read).1
    let id : NonZeroId kind := .ofIndex slot (by omega)
    exact ⟨id, rfl, (h.placed id p).mp (Option.join_eq_some_iff.mpr read)⟩
  · exact Option.join_eq_some_iff.mp ((h.placed id (dense + 1)).mpr ⟨Nat.succ_pos dense, lies⟩)

/-- An id without a value is not removed. -/
theorem Sound.remove_eq_none (h : Sound self) {id : NonZeroId kind} (absent : self.get id = none) :
    self.denseIndex id = none ∧ self.remove id = none := by
  have unheld : self.denseIndex id = none := by
    cases held : self.denseIndex id with
    | none => rfl
    | some dense =>
      have lies := h.denseIndex_eq_some.mp held
      obtain ⟨value, found⟩ := h.mem_denseIds.mp (List.mem_of_getElem? lies)
      rw [absent] at found
      cases found
  refine ⟨unheld, ?_⟩
  unfold remove
  rw [unheld]
  rfl

/-! ### Runs -/

variable [DenseId kind]

/-- A call that changes the store, with the ids given out so far. -/
inductive Step : DenseIdStore kind α × List (NonZeroId kind) → DenseIdStore kind α × List (NonZeroId kind) → Prop
  | insert {a b : DenseIdStore kind α} {issued : List (NonZeroId kind)} {value : α} {id : NonZeroId kind}
      (run : a.insert value = some (id, b)) : Step (a, issued) (b, issued ++ [id])
  | modify {a b : DenseIdStore kind α} {issued : List (NonZeroId kind)} {id : NonZeroId kind} {edit : α → α}
      (run : a.modify id edit = some b) : Step (a, issued) (b, issued)
  | remove {a b : DenseIdStore kind α} {issued : List (NonZeroId kind)} {id : NonZeroId kind} {value : α}
      (run : a.remove id = some (value, b)) : Step (a, issued) (b, issued)

/-- What calls on a new store lead to. -/
def Reaches (store : DenseIdStore kind α) (issued : List (NonZeroId kind)) : Prop :=
  ReflTransGen Step ({}, []) (store, issued)

/-- A slot for each id that was given out, in this order. -/
structure Issued (store : DenseIdStore kind α) (issued : List (NonZeroId kind)) : Prop where
  sound : store.Sound
  slots : issued.map NonZeroId.index = List.range store.slotCount

omit [DenseId kind] in
theorem modify_eq_some (h : Sound self) {id : NonZeroId kind} {edit : α → α} (run : self.modify id edit = some next) :
    ∃ value, self.get id = some value ∧ Changed self next id (edit value) := by
  cases found : self.get id with
  | none =>
    unfold modify at run
    rw [(h.remove_eq_none found).1] at run
    cases run
  | some value =>
    obtain ⟨after, run', changed⟩ := modify_spec h found edit
    obtain rfl := Option.some.inj (run'.symm.trans run)
    exact ⟨value, rfl, changed⟩

omit [DenseId kind] in
theorem remove_eq_some (h : Sound self) {id : NonZeroId kind} {value : α} (run : self.remove id = some (value, next)) :
    self.get id = some value ∧ Shrunk self next id := by
  cases found : self.get id with
  | none =>
    rw [(h.remove_eq_none found).2] at run
    cases run
  | some value' =>
    obtain ⟨after, run', shrunk⟩ := remove_spec h found
    obtain ⟨rfl, rfl⟩ := Prod.mk.inj (Option.some.inj (run'.symm.trans run))
    exact ⟨rfl, shrunk⟩

theorem Issued.step (h : Issued self issued) {issued' : List (NonZeroId kind)}
    (step : Step (self, issued) (next, issued')) : Issued next issued' := by
  cases step with
  | insert run =>
    have grown := grown_of_insert h.sound run
    refine ⟨grown.sound, ?_⟩
    rw [List.map_append, List.map_singleton, h.slots, grown.slots, grown.slot, List.range_succ]
  | modify run =>
    obtain ⟨value, -, changed⟩ := modify_eq_some h.sound run
    exact ⟨changed.sound, h.slots.trans (congrArg List.range changed.slots.symm)⟩
  | remove run =>
    obtain ⟨-, shrunk⟩ := remove_eq_some h.sound run
    exact ⟨shrunk.sound, h.slots.trans (congrArg List.range shrunk.slots.symm)⟩

theorem Reaches.numbered (h : Reaches self issued) : Issued self issued := by
  have each : ∀ state : DenseIdStore kind α × List (NonZeroId kind), ReflTransGen Step ({}, []) state →
      Issued state.1 state.2 := by
    intro state run
    induction run with
    | refl => exact ⟨sound_empty, rfl⟩
    | tail _ step ih => exact ih.step step
  exact each _ h

/-- In every run the slots and the values correspond, no id is given out twice, and a removal leaves the
value of every other id. -/
theorem ids_stable (h : Reaches self issued) :
    self.Paired ∧ issued.Nodup ∧
      (∀ value id next, self.insert value = some (id, next) →
        id ∉ issued ∧ next.get id = some value ∧ ∀ other, other ≠ id → next.get other = self.get other) ∧
      (∀ id, self.get id = none → self.denseIndex id = none ∧ self.remove id = none) ∧
      ∀ id value, self.get id = some value → ∃ next, self.remove id = some (value, next) ∧
        next.get id = none ∧ ∀ other, other ≠ id → next.get other = self.get other := by
  have sound := h.numbered.sound
  have slots := h.numbered.slots
  refine ⟨sound.paired, ?_, fun value id next run => ?_, fun id => sound.remove_eq_none, fun id value found => ?_⟩
  · have distinct : (issued.map NonZeroId.index).Nodup := slots ▸ List.nodup_range
    exact .of_map _ distinct
  · have grown := grown_of_insert sound run
    refine ⟨fun member => ?_, by rw [grown.get, if_pos rfl], fun other different => by rw [grown.get, if_neg different]⟩
    have listed : id.index ∈ List.range self.slotCount := slots ▸ List.mem_map_of_mem member
    rw [grown.slot, List.mem_range] at listed
    exact Nat.lt_irrefl _ listed
  · obtain ⟨next, run, shrunk⟩ := remove_spec sound found
    exact ⟨next, run, by rw [shrunk.get, if_pos rfl], fun other different => by rw [shrunk.get, if_neg different]⟩

/-- The first of three values is gone and the last has its place. -/
def movedStore : DenseIdStore .island Nat where
  slots := [none, some 2, some 1]
  denseIds := [.ofIndex 2 (by decide), .ofIndex 1 (by decide)]
  values := [30, 20]

theorem ids_stable_moved : movedStore.Paired ∧
    ([.ofIndex 0 (by decide), .ofIndex 1 (by decide), .ofIndex 2 (by decide)] : List IslandId).Nodup := by
  have reached : Reaches movedStore [.ofIndex 0 (by decide), .ofIndex 1 (by decide), .ofIndex 2 (by decide)] :=
    .tail (.tail (.tail (.tail .refl (.insert (rfl : _ = some (_, _)))) (.insert rfl)) (.insert rfl))
      (@Step.remove _ _ _ _ _ _ (.ofIndex 0 (by decide)) 10 rfl)
  exact ⟨(ids_stable reached).1, (ids_stable reached).2.1⟩

end DenseIdStore

end Hynergy
