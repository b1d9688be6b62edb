import Hynergy.Client.WorldIdAllocator
import Hynergy.Lib.IdPool

/-!
# What an allocator knows

An allocator tracks two pools: the one that was committed last, and the one that the pending adds
and removals lead to.
-/

namespace Hynergy

open Lib

namespace WorldIdAllocator

/-- What the slot of an id says; ids count from one. -/
def look (self : WorldIdAllocator) (id : Nat) : Option IdState :=
  if id = 0 then none else self.states[id - 1]?

def freshGeneration (self : WorldIdAllocator) (id : Nat) : Prop := self.generations[id - 1]? = some 0

/-- Where an id may be listed, and how far it may lie, for each state. -/
def Fits (state : Option IdState) (committed highWaterMark id : Nat) (free pending fresh : Prop) : Prop :=
  match state with
  | none => highWaterMark < id ∧ ¬ free ∧ ¬ pending
  | some .unused => highWaterMark < id ∧ ¬ free ∧ ¬ pending ∧ fresh
  | some .free => id ≤ committed ∧ free ∧ ¬ pending
  | some .live => id ≤ committed ∧ ¬ free ∧ ¬ pending
  | some .pendingAdd => id ≤ highWaterMark ∧ ¬ free ∧ pending
  | some .pendingRemove => id ≤ committed ∧ ¬ free ∧ pending
  | some .pendingAddRemove => id ≤ highWaterMark ∧ ¬ free ∧ pending
  | some .retired => id ≤ committed ∧ ¬ free ∧ ¬ pending

/-- The arrays and stacks agree; `committed` bounds the ids that were ever committed. -/
structure SoundUpTo (committed : Nat) (allocator : WorldIdAllocator) : Prop where
  sizes : allocator.generations.length = allocator.states.length
  fits : allocator.highWaterMark ≤ allocator.states.length
  bound : allocator.highWaterMark ≤ maxId
  within : committed ≤ allocator.highWaterMark
  freeNodup : allocator.freeIds.Nodup
  pendingNodup : allocator.pendingIds.Nodup
  freePos : ∀ id ∈ allocator.freeIds, 0 < id
  pendingPos : ∀ id ∈ allocator.pendingIds, 0 < id
  freeRoom : allocator.freeIds.length ≤ allocator.freeCapacity
  freeLimit : allocator.freeCapacity ≤ maxId
  pendingRoom : allocator.pendingIds.length ≤ allocator.pendingCapacity
  each : ∀ id, 0 < id → Fits (allocator.look id) committed allocator.highWaterMark id (id ∈ allocator.freeIds)
    (id ∈ allocator.pendingIds) (allocator.freshGeneration id)

def Sound (self : WorldIdAllocator) : Prop := SoundUpTo self.committedHighWaterMark self

/-- The pool of the last commit. -/
def committedPool (self : WorldIdAllocator) : IdPool :=
  ⟨self.committedHighWaterMark, fun id => self.look id = some .live ∨ self.look id = some .pendingRemove⟩

/-- The pool once the pending batch is applied. -/
def currentPool (self : WorldIdAllocator) : IdPool :=
  ⟨self.highWaterMark, fun id => self.look id = some .live ∨ self.look id = some .pendingAdd⟩

theorem sound_new : Sound {} := by
  refine ⟨rfl, Nat.zero_le _, Nat.zero_le _, le_refl _, List.nodup_nil, List.nodup_nil, nofun, nofun, Nat.zero_le _,
    by decide, Nat.zero_le _, fun id pos => ?_⟩
  have slot : (({} : WorldIdAllocator).look id = none) ∨ (({} : WorldIdAllocator).look id = some .unused ∧
      ({} : WorldIdAllocator).freshGeneration id) := by
    unfold look freshGeneration
    rw [if_neg (by omega)]
    by_cases inside : id - 1 < 16
    · exact Or.inr ⟨by rw [List.getElem?_replicate, if_pos inside], by rw [List.getElem?_replicate, if_pos inside]⟩
    · exact Or.inl (by rw [List.getElem?_replicate, if_neg inside])
  rcases slot with none' | ⟨unused, fresh⟩
  · rw [none']
    exact ⟨pos, nofun, nofun⟩
  · rw [unused]
    exact ⟨pos, nofun, nofun, fresh⟩

section Look

variable {self : WorldIdAllocator} {committed id : Nat} {state : IdState}

theorem look_pos (h : self.look id = some state) : 0 < id := by
  by_contra zero
  rw [look, if_pos (by omega)] at h
  exact absurd h nofun

theorem look_lt (h : self.look id = some state) : id - 1 < self.states.length := by
  have pos := look_pos h
  rw [look, if_neg (by omega)] at h
  exact (List.getElem?_eq_some_iff.mp h).1

/-- One slot is written. -/
theorem look_set (known : self.look id = some state) {states : List IdState} {next : IdState}
    (set : states = self.states.set (id - 1) next) (other : Nat) {after : WorldIdAllocator}
    (isStates : after.states = states) : after.look other = if other = id then some next else self.look other := by
  have pos := look_pos known
  have inside := look_lt known
  unfold look
  rw [isStates, set]
  by_cases zero : other = 0
  · rw [if_pos zero, if_pos zero, if_neg (by omega)]
  · rw [if_neg zero, if_neg zero, List.getElem?_set]
    by_cases same : other = id
    · rw [if_pos same, if_pos (by omega), if_pos inside]
    · rw [if_neg same, if_neg (by omega)]

theorem look_congr {after : WorldIdAllocator} (same : after.states = self.states) : after.look = self.look := by
  funext other
  rw [look, look, same]

theorem state_run (known : self.look id = some state) : WorldIdAllocator.state id self = .ok state self := by
  have pos := look_pos known
  unfold WorldIdAllocator.state
  rw [look, if_neg (by omega)] at known
  rw [Call.get_bind, known]
  rfl

theorem SoundUpTo.generation_run (h : SoundUpTo committed self) (known : self.look id = some state) :
    ∃ generation, generationAt id self = .ok generation self ∧ self.generations[id - 1]? = some generation := by
  have inside : id - 1 < self.generations.length := by
    rw [h.sizes]
    exact look_lt known
  refine ⟨self.generations[id - 1], ?_, List.getElem?_eq_getElem inside⟩
  unfold generationAt
  rw [Call.get_bind, List.getElem?_eq_getElem inside]
  rfl

end Look

/-! ### Growing the arrays -/

/-- Only capacities change. -/
structure Regrown (before after : WorldIdAllocator) : Prop where
  states : after.states = before.states
  generations : after.generations = before.generations
  freeIds : after.freeIds = before.freeIds
  pendingIds : after.pendingIds = before.pendingIds
  highWaterMark : after.highWaterMark = before.highWaterMark
  committedHighWaterMark : after.committedHighWaterMark = before.committedHighWaterMark
  freeCapacity : before.freeCapacity ≤ after.freeCapacity
  freeLimit : before.freeCapacity ≤ maxId → after.freeCapacity ≤ maxId
  pendingCapacity : before.pendingCapacity ≤ after.pendingCapacity

section Grow

variable {self after : WorldIdAllocator} {committed : Nat} {memory : Memory}

theorem Regrown.refl (self : WorldIdAllocator) : Regrown self self :=
  ⟨rfl, rfl, rfl, rfl, rfl, rfl, le_refl _, id, le_refl _⟩

theorem Regrown.sound (h : Regrown self after) (sound : SoundUpTo committed self) : SoundUpTo committed after := by
  refine ⟨?_, ?_, ?_, ?_, ?_, ?_, ?_, ?_, ?_, h.freeLimit sound.freeLimit, ?_, fun id pos => ?_⟩
  · rw [h.generations, h.states, sound.sizes]
  · rw [h.highWaterMark, h.states]
    exact sound.fits
  · rw [h.highWaterMark]
    exact sound.bound
  · rw [h.highWaterMark]
    exact sound.within
  · rw [h.freeIds]
    exact sound.freeNodup
  · rw [h.pendingIds]
    exact sound.pendingNodup
  · rw [h.freeIds]
    exact sound.freePos
  · rw [h.pendingIds]
    exact sound.pendingPos
  · rw [h.freeIds]
    exact sound.freeRoom.trans h.freeCapacity
  · rw [h.pendingIds]
    exact sound.pendingRoom.trans h.pendingCapacity
  · rw [look_congr h.states, h.highWaterMark, h.freeIds, h.pendingIds, freshGeneration, h.generations]
    exact sound.each id pos

theorem le_growCapacity {current required : Nat} (small : required ≤ maxId) (more : current < required) :
    current ≤ growCapacity current required ∧ required ≤ growCapacity current required := by
  unfold growCapacity
  omega

theorem ensurePendingCapacity_spec (self : WorldIdAllocator) (memory : Memory) (additional : Nat) :
    (∃ e, ensurePendingCapacity memory additional self = .err e self) ∨
      ∃ after, ensurePendingCapacity memory additional self = .ok () after ∧ Regrown self after ∧
        self.pendingIds.length + additional ≤ after.pendingCapacity := by
  unfold ensurePendingCapacity requiredCapacity
  rw [Call.get_bind, Call.bind_bind]
  by_cases large : maxId < self.pendingIds.length + additional
  · exact Or.inl ⟨_, Call.rejectIf_bind_pos large _⟩
  · rw [Call.rejectIf_bind_neg large, Call.pure_bind']
    by_cases enough : self.pendingIds.length + additional ≤ self.pendingCapacity
    · rw [if_pos enough]
      exact Or.inr ⟨self, rfl, .refl self, enough⟩
    · rw [if_neg enough]
      by_cases refused : memory.pending = false
      · exact Or.inl ⟨_, Call.rejectIf_bind_pos refused _⟩
      · rw [Call.rejectIf_bind_neg refused]
        obtain ⟨more, fits⟩ := @le_growCapacity self.pendingCapacity (self.pendingIds.length + additional) (by omega)
          (by omega)
        exact Or.inr ⟨_, rfl, ⟨rfl, rfl, rfl, rfl, rfl, rfl, le_refl _, id, more⟩, fits⟩

theorem ensureFreeCapacity_spec (self : WorldIdAllocator) (memory : Memory) (additional : Nat) :
    (∃ e, ensureFreeCapacity memory additional self = .err e self) ∨
      ∃ after, ensureFreeCapacity memory additional self = .ok () after ∧ Regrown self after ∧
        self.freeIds.length + additional ≤ after.freeCapacity := by
  unfold ensureFreeCapacity requiredCapacity
  rw [Call.get_bind, Call.bind_bind]
  by_cases large : maxId < self.freeIds.length + additional
  · exact Or.inl ⟨_, Call.rejectIf_bind_pos large _⟩
  · rw [Call.rejectIf_bind_neg large, Call.pure_bind']
    by_cases enough : self.freeIds.length + additional ≤ self.freeCapacity
    · rw [if_pos enough]
      exact Or.inr ⟨self, rfl, .refl self, enough⟩
    · rw [if_neg enough]
      by_cases refused : memory.free = false
      · exact Or.inl ⟨_, Call.rejectIf_bind_pos refused _⟩
      · rw [Call.rejectIf_bind_neg refused]
        obtain ⟨more, fits⟩ := @le_growCapacity self.freeCapacity (self.freeIds.length + additional) (by omega)
          (by omega)
        exact Or.inr ⟨_, rfl, ⟨rfl, rfl, rfl, rfl, rfl, rfl, more, fun _ => Nat.min_le_right _ _, le_refl _⟩, fits⟩

/-- The slots grow; a new slot is unused. -/
theorem ensureSlotCapacity_spec (h : SoundUpTo committed self) (memory : Memory) {required : Nat}
    (small : required ≤ maxId) :
    (∃ e, ensureSlotCapacity memory required self = .err e self) ∨
      ∃ after, ensureSlotCapacity memory required self = .ok () after ∧ SoundUpTo committed after ∧
        required ≤ after.states.length ∧ after.freeIds = self.freeIds ∧ after.pendingIds = self.pendingIds ∧
        after.highWaterMark = self.highWaterMark ∧
        after.committedHighWaterMark = self.committedHighWaterMark ∧
        ∀ id, after.look id = self.look id ∨ self.look id = none ∧ after.look id = some .unused := by
  unfold ensureSlotCapacity
  rw [Call.get_bind]
  by_cases enough : required ≤ self.states.length
  · rw [if_pos enough]
    exact Or.inr ⟨self, rfl, h, enough, rfl, rfl, rfl, rfl, fun _ => Or.inl rfl⟩
  · rw [if_neg enough]
    by_cases refused : memory.slots = false
    · exact Or.inl ⟨_, Call.rejectIf_bind_pos refused _⟩
    · rw [Call.rejectIf_bind_neg refused]
      obtain ⟨more, fits⟩ := @le_growCapacity self.states.length required small (by omega)
      have slots : ∀ id, 0 < id → ∀ (states : List IdState) (generations : List JavaInt) (grown : Nat),
          states = self.states ++ List.replicate grown .unused →
          generations = self.generations ++ List.replicate grown 0 →
          (states[id - 1]? = self.states[id - 1]? ∧ generations[id - 1]? = self.generations[id - 1]?) ∨
            self.states[id - 1]? = none ∧ states[id - 1]? = some .unused ∧ generations[id - 1]? = some 0 := by
        intro id pos states generations grown isStates isGenerations
        subst isStates isGenerations
        by_cases old : id - 1 < self.states.length
        · rw [List.getElem?_append_left old, List.getElem?_append_left (h.sizes ▸ old)]
          exact Or.inl ⟨rfl, rfl⟩
        · rw [List.getElem?_append_right (by omega), List.getElem?_append_right (by rw [h.sizes]; omega), h.sizes,
            List.getElem?_eq_none (show self.states.length ≤ id - 1 by omega),
            List.getElem?_eq_none (show self.generations.length ≤ id - 1 by rw [h.sizes]; omega),
            List.getElem?_replicate, List.getElem?_replicate]
          split
          · exact Or.inr ⟨rfl, rfl, rfl⟩
          · exact Or.inl ⟨rfl, rfl⟩
      refine Or.inr ⟨_, rfl, ⟨?_, ?_, h.bound, h.within, h.freeNodup, h.pendingNodup, h.freePos, h.pendingPos,
        h.freeRoom, h.freeLimit, h.pendingRoom, fun id pos => ?_⟩, ?_, rfl, rfl, rfl, rfl, fun id => ?_⟩
      · simp only [List.length_append, List.length_replicate, h.sizes]
      · have := h.fits
        simp only [List.length_append]
        omega
      · have old := h.each id pos
        rcases slots id pos _ _ (growCapacity self.states.length required - self.states.length) rfl rfl with
          ⟨same, same'⟩ | ⟨none', unused, fresh⟩
        · unfold look freshGeneration at old ⊢
          rw [if_neg (by omega)] at old ⊢
          rw [same, same']
          exact old
        · unfold look freshGeneration at old ⊢
          rw [if_neg (by omega), none'] at old
          rw [if_neg (by omega), unused]
          exact ⟨old.1, old.2.1, old.2.2, fresh⟩
      · simp only [List.length_append, List.length_replicate]
        omega
      · unfold look
        by_cases zero : id = 0
        · rw [if_pos zero, if_pos zero]
          exact Or.inl rfl
        · rw [if_neg zero, if_neg zero]
          rcases slots id (by omega) _ _ (growCapacity self.states.length required - self.states.length) rfl rfl with
            ⟨same, -⟩ | ⟨none', unused, -⟩
          · exact Or.inl same
          · exact Or.inr ⟨none', unused⟩

end Grow

/-! ### Editing one id -/

section Edit

variable {self after : WorldIdAllocator} {committed id : Nat} {state next : IdState}

/-- One id changes its state, and its place in the stacks. -/
structure Edits (before after : WorldIdAllocator) (id : Nat) (next : IdState) : Prop where
  states : after.states = before.states.set (id - 1) next
  generations : after.generations = before.generations ∨ ∃ g, after.generations = before.generations.set (id - 1) g
  freeIds : ∀ other, other ≠ id → (other ∈ after.freeIds ↔ other ∈ before.freeIds)
  pendingIds : ∀ other, other ≠ id → (other ∈ after.pendingIds ↔ other ∈ before.pendingIds)
  freeNodup : after.freeIds.Nodup
  pendingNodup : after.pendingIds.Nodup
  freeRoom : after.freeIds.length ≤ after.freeCapacity
  freeCapacity : after.freeCapacity = before.freeCapacity
  pendingRoom : after.pendingIds.length ≤ after.pendingCapacity

theorem Edits.look (h : Edits self after id next) (known : self.look id = some state) (other : Nat) :
    after.look other = if other = id then some next else self.look other :=
  look_set known rfl other h.states

theorem Edits.fresh (h : Edits self after id next) (pos : 0 < id) {other : Nat} (pos' : 0 < other)
    (different : other ≠ id) : after.freshGeneration other ↔ self.freshGeneration other := by
  unfold freshGeneration
  rcases h.generations with same | ⟨g, set⟩
  · rw [same]
  · rw [set, List.getElem?_set, if_neg (by omega)]

theorem Edits.sizes (h : Edits self after id next) (sound : SoundUpTo committed self) :
    after.generations.length = after.states.length := by
  rw [h.states, List.length_set, ← sound.sizes]
  rcases h.generations with same | ⟨g, set⟩
  · rw [same]
  · rw [set, List.length_set]

theorem Edits.sound (h : Edits self after id next) (sound : SoundUpTo committed self)
    (known : self.look id = some state) (mark : after.highWaterMark = self.highWaterMark)
    (here : Fits (some next) committed self.highWaterMark id (id ∈ after.freeIds) (id ∈ after.pendingIds)
      (after.freshGeneration id)) : SoundUpTo committed after := by
  have pos := look_pos known
  refine ⟨h.sizes sound, ?_, mark ▸ sound.bound, mark ▸ sound.within, h.freeNodup, h.pendingNodup, ?_, ?_, h.freeRoom,
    h.freeCapacity ▸ sound.freeLimit, h.pendingRoom, fun other pos' => ?_⟩
  · rw [mark, h.states, List.length_set]
    exact sound.fits
  · intro other member
    by_cases same : other = id
    · rwa [same]
    · exact sound.freePos other ((h.freeIds other same).mp member)
  · intro other member
    by_cases same : other = id
    · rwa [same]
    · exact sound.pendingPos other ((h.pendingIds other same).mp member)
  · rw [h.look known, mark]
    by_cases same : other = id
    · subst same
      rw [if_pos rfl]
      exact here
    · rw [if_neg same, h.freeIds other same, h.pendingIds other same, h.fresh pos pos' same]
      exact sound.each other pos'

/-- The pools change where the states of the id are told apart. -/
theorem Edits.live (h : Edits self after id next) (known : self.look id = some state) {first second : IdState}
    (other : Nat) : (after.look other = some first ∨ after.look other = some second) ↔
      if other = id then next = first ∨ next = second
      else self.look other = some first ∨ self.look other = some second := by
  rw [h.look known]
  split
  · simp only [Option.some.injEq]
  · rfl

end Edit

end WorldIdAllocator

end Hynergy
