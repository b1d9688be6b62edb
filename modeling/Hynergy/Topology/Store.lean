import Hynergy.Lib.Returns
import Hynergy.Lib.SwapRemove
import Hynergy.Model.Ids

/-!
# Stores with stable ids

Values lie densely; a slot for each id ever given out holds the position of its value. An id
whose value is removed is never given out again.
-/

namespace Hynergy

open Lib

/-- The ids a store gives out, one for each slot below `limit`. -/
class DenseId (kind : NonZeroIdKind) where
  fromSlot : Nat → Option (NonZeroId kind)
  limit : Nat
  limit_le : limit < 2 ^ 32
  fromSlot_isSome : ∀ slot, slot < limit → ∃ id, fromSlot slot = some id
  lt_limit : ∀ slot id, fromSlot slot = some id → slot < limit
  index_fromSlot : ∀ slot id, fromSlot slot = some id → id.index = slot

/-- A `NetId` must fit 31 bits. -/
instance : DenseId .net where
  fromSlot slot := if slot < maxPackedId then NonZeroId.ofIndex? slot else none
  limit := maxPackedId
  limit_le := by decide
  fromSlot_isSome slot inside := by
    have small : slot + 1 < 2 ^ 32 := by
      simp only [maxPackedId] at inside
      omega
    refine ⟨.ofIndex slot small, ?_⟩
    rw [if_pos inside]
    exact NonZeroId.ofIndex?_eq_some.mpr rfl
  lt_limit slot id h := by
    split at h
    · assumption
    · simp at h
  index_fromSlot slot id h := by
    split at h
    · exact NonZeroId.ofIndex?_eq_some.mp h
    · simp at h

instance : DenseId .island where
  fromSlot := NonZeroId.ofIndex?
  limit := 2 ^ 32 - 1
  limit_le := by decide
  fromSlot_isSome slot inside :=
    ⟨.ofIndex slot (by omega), NonZeroId.ofIndex?_eq_some.mpr rfl⟩
  lt_limit slot id h := by
    have := id.index_lt
    rw [NonZeroId.ofIndex?_eq_some.mp h] at this
    omega
  index_fromSlot _ _ h := NonZeroId.ofIndex?_eq_some.mp h

structure DenseIdStore (kind : NonZeroIdKind) (α : Type) where
  slots : List (Option Nat) := []
  denseIds : List (NonZeroId kind) := []
  values : List α := []

namespace DenseIdStore

variable {kind : NonZeroIdKind} {α : Type}

/-- A position counts from one and fits a `u32`. -/
def encodeDenseIndex (index : Nat) : Option Nat :=
  if index + 1 < 2 ^ 32 then some (index + 1) else none

def reserve (self : DenseIdStore kind α) (additional : Nat) : Option Unit :=
  if self.slots.length + additional < 2 ^ 32 then some () else none

def insert [DenseId kind] (self : DenseIdStore kind α) (value : α) :
    Option (NonZeroId kind × DenseIdStore kind α) := do
  let id ← DenseId.fromSlot self.slots.length
  let densePosition ← encodeDenseIndex self.values.length
  some (id, { slots := self.slots ++ [some densePosition]
              denseIds := self.denseIds ++ [id]
              values := self.values ++ [value] })

def denseIndex (self : DenseIdStore kind α) (id : NonZeroId kind) : Option Nat :=
  self.slots[id.index]?.join.map (· - 1)

def get (self : DenseIdStore kind α) (id : NonZeroId kind) : Option α :=
  (self.denseIndex id).bind fun dense => self.values[dense]?

/-- `get_mut(id)` with the edit made through it; `none` where there is no value. -/
def modify (self : DenseIdStore kind α) (id : NonZeroId kind) (edit : α → α) :
    Option (DenseIdStore kind α) := do
  let dense ← self.denseIndex id
  let value ← self.values[dense]?
  some { self with values := self.values.set dense (edit value) }

/-- `remove(id)`; `none` where there is no value. -/
def remove (self : DenseIdStore kind α) (id : NonZeroId kind) :
    Option (α × DenseIdStore kind α) := do
  let dense ← self.denseIndex id
  let slots := self.slots.set id.index none
  let removedValue ← self.values[dense]?
  let denseIds := swapRemove self.denseIds dense
  let values := swapRemove self.values dense
  if dense < values.length then do
    let movedId ← denseIds[dense]?
    let position ← encodeDenseIndex dense
    let slots ← assign slots movedId.index (some position)
    some (removedValue, { slots, denseIds, values })
  else some (removedValue, { slots, denseIds, values })

def iter (self : DenseIdStore kind α) : List (NonZeroId kind × α) := self.denseIds.zip self.values

def slotCount (self : DenseIdStore kind α) : Nat := self.slots.length

/-- How many ids have not been given out. -/
def unused [DenseId kind] (self : DenseIdStore kind α) : Nat := DenseId.limit kind - self.slotCount

/-! ### The invariant -/

/-- A slot holds the position where its id and its value lie. -/
structure Sound (store : DenseIdStore kind α) : Prop where
  values : store.values.length = store.denseIds.length
  placed : ∀ (id : NonZeroId kind) p, store.slots[id.index]?.join = some p ↔
    0 < p ∧ store.denseIds[p - 1]? = some id
  packed : store.denseIds.length ≤ store.slots.length
  bounded : store.slots.length < 2 ^ 32

variable {self next : DenseIdStore kind α}

theorem sound_empty : Sound ({} : DenseIdStore kind α) :=
  ⟨rfl, by simp, Nat.le_refl _, Nat.two_pow_pos 32⟩

namespace Sound

theorem denseIndex_eq_some (h : Sound self) {id : NonZeroId kind} {dense : Nat} :
    self.denseIndex id = some dense ↔ self.denseIds[dense]? = some id := by
  rw [denseIndex, Option.map_eq_some_iff]
  constructor
  · rintro ⟨p, held, rfl⟩
    exact ((h.placed id p).mp held).2
  · intro lies
    exact ⟨dense + 1, (h.placed id _).mpr ⟨Nat.succ_pos _, lies⟩, rfl⟩

theorem get_eq_some (h : Sound self) {id : NonZeroId kind} {value : α} :
    self.get id = some value ↔
      ∃ dense : Nat, self.denseIds[dense]? = some id ∧ self.values[dense]? = some value := by
  rw [get, Option.bind_eq_some_iff]
  simp only [h.denseIndex_eq_some]

theorem nodup (h : Sound self) : self.denseIds.Nodup := by
  rw [List.nodup_iff_getElem?_ne_getElem?]
  intro i j before inside same
  have lies := List.getElem?_eq_getElem inside
  have atI := h.denseIndex_eq_some.mpr (same.trans lies)
  have atJ := h.denseIndex_eq_some.mpr lies
  rw [atI] at atJ
  exact absurd (Option.some.inj atJ) (by omega)

theorem mem_denseIds (h : Sound self) {id : NonZeroId kind} :
    id ∈ self.denseIds ↔ ∃ value, self.get id = some value := by
  constructor
  · intro member
    obtain ⟨dense, lies⟩ := List.mem_iff_getElem?.mp member
    have inside : dense < self.values.length :=
      h.values ▸ (List.getElem?_eq_some_iff.mp lies).1
    exact ⟨self.values[dense], h.get_eq_some.mpr ⟨dense, lies, List.getElem?_eq_getElem inside⟩⟩
  · rintro ⟨value, found⟩
    obtain ⟨dense, lies, -⟩ := h.get_eq_some.mp found
    exact List.mem_of_getElem? lies

theorem mem_iter (h : Sound self) {id : NonZeroId kind} {value : α} :
    (id, value) ∈ self.iter ↔ self.get id = some value := by
  rw [h.get_eq_some, iter, List.mem_iff_getElem?]
  simp only [List.getElem?_zip_eq_some]

theorem index_lt (_h : Sound self) {id : NonZeroId kind} {value : α} (found : self.get id = some value) :
    id.index < self.slotCount := by
  obtain ⟨dense, held, -⟩ := Option.bind_eq_some_iff.mp found
  obtain ⟨p, held, -⟩ := Option.map_eq_some_iff.mp held
  have := Option.join_eq_some_iff.mp held
  exact (List.getElem?_eq_some_iff.mp this).1

/-- The position of a value, with everything a mutation needs to know about it. -/
theorem position (h : Sound self) {id : NonZeroId kind} {value : α} (found : self.get id = some value) :
    ∃ dense, self.denseIndex id = some dense ∧ self.denseIds[dense]? = some id ∧
      self.values[dense]? = some value ∧ dense < self.denseIds.length := by
  obtain ⟨dense, lies, read⟩ := h.get_eq_some.mp found
  exact ⟨dense, h.denseIndex_eq_some.mpr lies, lies, read, (List.getElem?_eq_some_iff.mp lies).1⟩

theorem position_unique (h : Sound self) {id : NonZeroId kind} {i j : Nat}
    (hi : self.denseIds[i]? = some id) (hj : self.denseIds[j]? = some id) : i = j :=
  Option.some.inj ((h.denseIndex_eq_some.mpr hi).symm.trans (h.denseIndex_eq_some.mpr hj))

end Sound

/-! ### Operations -/

theorem reserve_returns (additional : Nat) :
    Returns (2 ^ 32 ≤ self.slotCount + additional) (self.reserve additional)
      fun _ => self.slotCount + additional < 2 ^ 32 := by
  unfold reserve slotCount
  split
  · assumption
  · exact Nat.not_lt.mp ‹_›

/-- `value` is added under the new id. -/
structure Grown (before after : DenseIdStore kind α) (id : NonZeroId kind) (value : α) : Prop where
  sound : Sound after
  slot : id.index = before.slotCount
  slots : after.slotCount = before.slotCount + 1
  fresh : before.get id = none
  get : ∀ other, after.get other = if other = id then some value else before.get other
  ids : after.denseIds = before.denseIds ++ [id]

/-- What lies where after an id that was not listed is appended. -/
theorem getElem?_concat_iff {ids : List (NonZeroId kind)} {id other : NonZeroId kind} (unlisted : id ∉ ids) {q : Nat} :
    (ids ++ [id])[q]? = some other ↔ if other = id then q = ids.length else ids[q]? = some other := by
  rw [List.getElem?_append]
  by_cases inside : q < ids.length
  · rw [if_pos inside]
    split
    · rename_i same
      have apart : ids[q]? ≠ some other := fun read => unlisted (same ▸ List.mem_of_getElem? read)
      exact ⟨fun read => absurd read apart, fun last => absurd last inside.ne⟩
    · exact Iff.rfl
  · rw [if_neg inside, List.getElem?_eq_none (Nat.not_lt.mp inside), List.getElem?_singleton]
    split
    · rename_i last
      split
      · rename_i same
        simp only [same, true_iff]
        omega
      · rename_i different
        simp only [Option.some.injEq, reduceCtorEq, iff_false]
        exact fun same => different same.symm
    · rename_i notLast
      split
      · simp only [reduceCtorEq, false_iff]
        omega
      · exact Iff.rfl

theorem grown_of_insert [DenseId kind] (h : Sound self) {value : α} {id : NonZeroId kind}
    (run : self.insert value = some (id, next)) : Grown self next id value := by
  have limit : DenseId.limit kind < 2 ^ 32 := DenseId.limit_le
  obtain ⟨id', given, position, fits, built⟩ : ∃ id', DenseId.fromSlot self.slots.length = some id' ∧
      ∃ position, encodeDenseIndex self.values.length = some position ∧
        some (id', { slots := self.slots ++ [some position], denseIds := self.denseIds ++ [id']
                     values := self.values ++ [value] }) = some (id, next) := by
    unfold insert at run
    obtain ⟨id', given, run⟩ := Option.bind_eq_some_iff.mp run
    obtain ⟨position, fits, run⟩ := Option.bind_eq_some_iff.mp run
    exact ⟨id', given, position, fits, run⟩
  obtain ⟨rfl, rfl⟩ := Prod.mk.inj (Option.some.inj built)
  obtain rfl : self.denseIds.length + 1 = position := by
    unfold encodeDenseIndex at fits
    split at fits
    · rw [← h.values]
      exact Option.some.inj fits
    · simp at fits
  have slot := DenseId.index_fromSlot _ _ given
  have fresh : self.get id' = none := by
    rw [get, denseIndex, slot, List.getElem?_eq_none (Nat.le_refl _)]
    rfl
  have unlisted : id' ∉ self.denseIds := by
    intro member
    obtain ⟨value, found⟩ := h.mem_denseIds.mp member
    rw [fresh] at found
    simp at found
  have bound := id'.index_lt
  have sound : Sound { slots := self.slots ++ [some (self.denseIds.length + 1)]
                       denseIds := self.denseIds ++ [id'], values := self.values ++ [value] } := by
    have packed := h.packed
    refine ⟨by simp [h.values], ?_, by simpa using packed, by simp; omega⟩
    intro other p
    rw [getElem?_concat_iff unlisted]
    by_cases same : other = id'
    · rw [if_pos same, same, slot, List.getElem?_append_right (Nat.le_refl _), Nat.sub_self,
        List.getElem?_cons_zero, Option.join_some, Option.some.injEq]
      omega
    · have outside : other.index ≠ self.slots.length := fun e =>
        same (NonZeroId.index_inj.mp (e.trans slot.symm))
      have slots : (self.slots ++ [some (self.denseIds.length + 1)])[other.index]? =
          self.slots[other.index]? := by
        rw [List.getElem?_append]
        split
        · rfl
        · rw [List.getElem?_eq_none (by simp; omega), List.getElem?_eq_none (by omega)]
      rw [if_neg same, slots]
      exact h.placed other p
  refine ⟨sound, slot, by simp [slotCount], fresh, ?_, rfl⟩
  intro other
  apply Option.ext
  intro v
  rw [← sound.mem_iter, iter, List.zip_append h.values.symm, List.mem_append]
  rw [show self.denseIds.zip self.values = self.iter from rfl, h.mem_iter]
  by_cases same : other = id'
  · subst same
    simp [fresh, eq_comm]
  · simp [same]

/-- A new id is given out unless all are used up. -/
theorem insert_returns [DenseId kind] (h : Sound self) (value : α) :
    Returns (self.unused = 0) (self.insert value)
      fun result => 0 < self.unused ∧ Grown self result.2 result.1 value := by
  apply Returns.of_parts
  · intro room
    unfold unused at room
    have limit : DenseId.limit kind < 2 ^ 32 := DenseId.limit_le
    have packed := h.packed
    have length := h.values
    unfold slotCount at room
    obtain ⟨id, given⟩ : ∃ id : NonZeroId kind, DenseId.fromSlot self.slots.length = some id :=
      DenseId.fromSlot_isSome _ (by omega)
    unfold insert encodeDenseIndex
    rw [given, if_pos (by omega)]
    exact ⟨_, rfl⟩
  · intro result run
    obtain ⟨id, given, -⟩ := Option.bind_eq_some_iff.mp run
    exact ⟨Nat.sub_pos_of_lt (DenseId.lt_limit _ id given), grown_of_insert h run⟩

/-- The value of `id` is replaced. -/
structure Changed (before after : DenseIdStore kind α) (id : NonZeroId kind) (value : α) : Prop where
  sound : Sound after
  slots : after.slotCount = before.slotCount
  get : ∀ other, after.get other = if other = id then some value else before.get other
  ids : after.denseIds = before.denseIds

theorem modify_spec (h : Sound self) {id : NonZeroId kind} {value : α} (found : self.get id = some value)
    (edit : α → α) :
    ∃ next, self.modify id edit = some next ∧ Changed self next id (edit value) := by
  obtain ⟨dense, held, lies, read, inside⟩ := h.position found
  have run : self.modify id edit =
      some { self with values := self.values.set dense (edit value) } := by
    unfold modify
    rw [held, Option.bind_eq_bind, Option.bind_some, read]
    rfl
  refine ⟨_, run, ⟨by rw [List.length_set]; exact h.values, h.placed, h.packed, h.bounded⟩, rfl, ?_, rfl⟩
  intro other
  show ((self.denseIndex other).bind fun d => (self.values.set dense (edit value))[d]?) = _
  by_cases same : other = id
  · rw [if_pos same, same, held, Option.bind_some, List.getElem?_set_self (h.values ▸ inside)]
  · rw [if_neg same, get]
    cases held' : self.denseIndex other with
    | none => rfl
    | some d =>
      rw [Option.bind_some, Option.bind_some, List.getElem?_set_ne]
      intro here
      subst here
      exact same (Option.some.inj ((h.denseIndex_eq_some.mp held').symm.trans lies))

/-- `id` is gone. -/
structure Shrunk (before after : DenseIdStore kind α) (id : NonZeroId kind) : Prop where
  sound : Sound after
  slots : after.slotCount = before.slotCount
  get : ∀ other, after.get other = if other = id then none else before.get other

/-- The slots after a removal: the removed one is empty, the moved value's has its position. -/
theorem placed_swapRemove (h : Sound self) {id : NonZeroId kind} {dense : Nat}
    (lies : self.denseIds[dense]? = some id) {slots : List (Option Nat)}
    (gone : slots[id.index]?.join = none)
    (moved : ∀ other, other ≠ id → slots[other.index]?.join =
      if self.denseIds[self.denseIds.length - 1]? = some other then some (dense + 1)
      else self.slots[other.index]?.join) (other : NonZeroId kind) (p : Nat) :
    slots[other.index]?.join = some p ↔
      0 < p ∧ (Lib.swapRemove self.denseIds dense)[p - 1]? = some other := by
  have inside := (List.getElem?_eq_some_iff.mp lies).1
  rw [getElem?_swapRemove inside]
  by_cases same : other = id
  · subst same
    rw [gone]
    simp only [reduceCtorEq, false_iff, not_and]
    intro _ found
    split at found
    · split at found
      · have := h.position_unique found lies
        omega
      · exact absurd (h.position_unique found lies) (by assumption)
    · simp at found
  · rw [moved other same]
    by_cases last : self.denseIds[self.denseIds.length - 1]? = some other
    · have notLast : dense ≠ self.denseIds.length - 1 := by
        intro e
        rw [← e, lies] at last
        exact same (Option.some.inj last).symm
      rw [if_pos last]
      constructor
      · intro e
        obtain rfl := Option.some.inj e
        simp only [Nat.add_sub_cancel, if_true, last]
        rw [if_pos (by omega)]
        exact ⟨Nat.succ_pos _, rfl⟩
      · rintro ⟨positive, found⟩
        split at found
        · split at found
          · congr 1
            omega
          · have := h.position_unique found last
            omega
        · simp at found
    · rw [if_neg last, h.placed]
      have elsewhere : ∀ q : Nat, self.denseIds[q]? = some other →
          q ≠ dense ∧ q + 1 < self.denseIds.length := by
        intro q found
        have := (List.getElem?_eq_some_iff.mp found).1
        refine ⟨?_, ?_⟩
        · intro e
          rw [e, lies] at found
          exact same (Option.some.inj found).symm
        · by_contra beyond
          rw [show self.denseIds.length - 1 = q by omega] at last
          exact last found
      constructor
      · rintro ⟨positive, found⟩
        obtain ⟨notHere, notLast⟩ := elsewhere _ found
        rw [if_pos notLast, if_neg notHere]
        exact ⟨positive, found⟩
      · rintro ⟨positive, found⟩
        split at found
        · split at found
          · exact absurd found last
          · exact ⟨positive, found⟩
        · simp at found

theorem remove_spec (h : Sound self) {id : NonZeroId kind} {value : α} (found : self.get id = some value) :
    ∃ next, self.remove id = some (value, next) ∧ Shrunk self next id := by
  obtain ⟨dense, held, lies, read, inside⟩ := h.position found
  have packed := h.packed
  have bounded := h.bounded
  have slotBound := h.index_lt found
  have lengths := h.values
  -- the slots, whether or not a value moved
  obtain ⟨slots, run, count, gone, moved⟩ : ∃ slots, self.remove id = some (value,
        { slots, denseIds := Lib.swapRemove self.denseIds dense
          values := Lib.swapRemove self.values dense }) ∧
      slots.length = self.slots.length ∧ slots[id.index]?.join = none ∧
      ∀ other, other ≠ id → slots[other.index]?.join =
        if self.denseIds[self.denseIds.length - 1]? = some other then some (dense + 1)
        else self.slots[other.index]?.join := by
    unfold remove
    rw [held, Option.bind_eq_bind, Option.bind_some, read, Option.bind_eq_bind, Option.bind_some]
    dsimp only
    rw [length_swapRemove]
    have cleared : (self.slots.set id.index none)[id.index]?.join = none := by
      rw [List.getElem?_set_self slotBound]
      rfl
    have others : ∀ other : NonZeroId kind, other ≠ id →
        (self.slots.set id.index none)[other.index]? = self.slots[other.index]? := by
      intro other different
      rw [List.getElem?_set_ne fun e => different (NonZeroId.index_inj.mp e).symm]
    by_cases last : dense < self.values.length - 1
    · have final : self.denseIds.length - 1 < self.denseIds.length := by omega
      obtain ⟨mover, atLast⟩ : ∃ mover, self.denseIds[self.denseIds.length - 1]? = some mover :=
        ⟨_, List.getElem?_eq_getElem final⟩
      have slotMover : mover.index < (self.slots.set id.index none).length := by
        rw [List.length_set]
        have := (h.placed mover (self.denseIds.length - 1 + 1)).mpr ⟨Nat.succ_pos _, atLast⟩
        exact (List.getElem?_eq_some_iff.mp (Option.join_eq_some_iff.mp this)).1
      have different : mover ≠ id := by
        intro e
        have := h.position_unique (e ▸ atLast) lies
        omega
      rw [if_pos last, getElem?_swapRemove inside, if_pos (by omega), if_pos rfl, atLast,
        Option.bind_eq_bind, Option.bind_some, encodeDenseIndex, if_pos (by omega),
        Option.bind_eq_bind, Option.bind_some, assign_of_lt slotMover]
      refine ⟨_, rfl, by simp, ?_, ?_⟩
      · rw [List.getElem?_set_ne fun e => different (NonZeroId.index_inj.mp e), cleared]
      · intro other notId
        by_cases same : other = mover
        · subst same
          rw [List.getElem?_set_self slotMover, if_pos rfl]
          rfl
        · rw [List.getElem?_set_ne fun e => same (NonZeroId.index_inj.mp e).symm, others other notId,
            if_neg]
          intro e
          exact same (Option.some.inj e).symm
    · rw [if_neg last]
      refine ⟨_, rfl, by simp, cleared, ?_⟩
      intro other notId
      rw [others other notId, if_neg]
      intro atLast
      rw [show self.denseIds.length - 1 = dense by omega, lies] at atLast
      exact notId (Option.some.inj atLast).symm
  have sound : Sound (DenseIdStore.mk slots (Lib.swapRemove self.denseIds dense)
      (Lib.swapRemove self.values dense)) := by
    refine ⟨by simp [h.values], placed_swapRemove h lies gone moved, ?_, count ▸ bounded⟩
    show (Lib.swapRemove self.denseIds dense).length ≤ slots.length
    rw [length_swapRemove]
    omega
  refine ⟨_, run, sound, count, ?_⟩
  intro other
  apply Option.ext
  intro v
  have unique : self.iter.Nodup := by
    apply List.Nodup.of_map Prod.fst
    rw [iter, List.map_fst_zip (Nat.le_of_eq h.values.symm)]
    exact h.nodup
  have here : self.iter[dense]? = some (id, value) := by
    rw [iter, List.getElem?_zip_eq_some]
    exact ⟨lies, read⟩
  rw [← sound.mem_iter, iter, zip_swapRemove inside h.values,
    show self.denseIds.zip self.values = self.iter from rfl, mem_swapRemove unique here, h.mem_iter]
  by_cases same : other = id
  · subst same
    simp only [found, if_true, ne_eq, Prod.mk.injEq, true_and, reduceCtorEq, iff_false, not_and,
      not_not, Option.some.injEq]
    exact Eq.symm
  · simp [same]

end DenseIdStore

end Hynergy
