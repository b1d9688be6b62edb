import Mathlib.Data.List.Perm.Subperm
import Hynergy.Client.IdOperations
import Hynergy.Model.CallInversion

/-!
# Slots and generations

What a call does to the state and the generation of each id.
-/

namespace Hynergy

namespace WorldIdAllocator

variable {self after : WorldIdAllocator} {id : Nat} {state next : IdState} {g : JavaInt}

/-- The state and generation of an id that is in use or was. -/
def view (self : WorldIdAllocator) (id : Nat) : Option (IdState × JavaInt) :=
  match self.look id, self.generations[id - 1]? with
  | some state, some generation => if state = .unused then none else some (state, generation)
  | _, _ => none

theorem view_eq_some : self.view id = some (state, g) ↔
    self.look id = some state ∧ state ≠ .unused ∧ self.generations[id - 1]? = some g := by
  unfold view
  split
  · rename_i s generation isState isGeneration
    rw [isState, isGeneration]
    split
    · rename_i unused
      subst unused
      simp only [reduceCtorEq, Option.some.injEq, ne_eq, false_iff, not_and]
      exact fun same used _ => used same.symm
    · rename_i used
      simp only [Option.some.injEq, Prod.mk.injEq]
      exact ⟨fun ⟨h, h'⟩ => ⟨h, h ▸ used, h'⟩, fun ⟨h, _, h'⟩ => ⟨h, h'⟩⟩
  · rename_i missing
    refine ⟨nofun, fun ⟨isState, _, isGeneration⟩ => (missing _ _ isState isGeneration).elim⟩

theorem view_congr (states : after.states = self.states) (generations : after.generations = self.generations) :
    after.view = self.view := by
  funext other
  rw [view, view, look_congr states, generations]

/-- One slot is written. -/
theorem view_edit {a : WorldIdAllocator} {n : IdState} (known : self.look id = some state)
    (sizes : self.generations.length = self.states.length) (states : a.states = self.states.set (id - 1) n)
    (generations : a.generations = self.generations.set (id - 1) g) (other : Nat) : a.view other =
      if other = id then (if n = .unused then none else some (n, g)) else self.view other := by
  have pos := look_pos known
  have inside := look_lt known
  unfold view
  rw [look_set known rfl other states, generations]
  by_cases same : other = id
  · rw [if_pos same, if_pos same, same, List.getElem?_set_self (sizes ▸ inside)]
  · rw [if_neg same, if_neg same]
    by_cases zero : other = 0
    · rw [look, if_pos zero]
    · rw [List.getElem?_set_ne (by omega)]

theorem view_edit_state {a : WorldIdAllocator} {n : IdState} (known : self.look id = some state)
    (sizes : self.generations.length = self.states.length) (read : self.generations[id - 1]? = some g)
    (states : a.states = self.states.set (id - 1) n) (generations : a.generations = self.generations) (other : Nat) :
    a.view other = if other = id then (if n = .unused then none else some (n, g)) else self.view other := by
  refine view_edit known sizes states ?_ other
  obtain ⟨inside, rfl⟩ := List.getElem?_eq_some_iff.mp read
  rw [generations, List.set_getElem_self]

theorem Regrown.view (h : Regrown self after) : after.view = self.view := view_congr h.states h.generations

theorem view_isSome (sound : self.Sound) : (self.view id).isSome = true ↔ 0 < id ∧ id ≤ self.highWaterMark := by
  constructor
  · intro used
    obtain ⟨⟨state, g⟩, read⟩ := Option.isSome_iff_exists.mp used
    obtain ⟨known, used', -⟩ := view_eq_some.mp read
    have pos := look_pos known
    have each := sound.each id pos
    have within : self.committedHighWaterMark ≤ self.highWaterMark := sound.within
    rw [known] at each
    refine ⟨pos, ?_⟩
    cases state with
    | unused => exact absurd rfl used'
    | free | live | pendingRemove | retired => exact each.1.trans within
    | pendingAdd | pendingAddRemove => exact each.1
  · rintro ⟨pos, inside⟩
    obtain ⟨state, known, used⟩ := sound.known pos inside
    obtain ⟨g, -, read⟩ := sound.generation_run known
    rw [view_eq_some.mpr ⟨known, used, read⟩]
    rfl

/-! ### Reserving -/

/-- Nothing changes but that free ids whose generations are used up are retired. -/
structure Stutters (before after : WorldIdAllocator) : Prop where
  committed : after.committedHighWaterMark = before.committedHighWaterMark
  view : ∀ id, after.view id = before.view id ∨
    ∃ g, before.view id = some (.free, g) ∧ after.view id = some (.retired, g)

theorem Stutters.of_view (committed : after.committedHighWaterMark = self.committedHighWaterMark)
    (same : after.view = self.view) : Stutters self after := ⟨committed, fun _ => Or.inl (congrFun same _)⟩

theorem Stutters.trans {third : WorldIdAllocator} (h : Stutters self after) (h' : Stutters after third) :
    Stutters self third := by
  refine ⟨h'.committed.trans h.committed, fun id => ?_⟩
  rcases h.view id with same | ⟨g, free, retired⟩
  · rcases h'.view id with same' | ⟨g, free, retired⟩
    · exact Or.inl (same'.trans same)
    · exact Or.inr ⟨g, same ▸ free, retired⟩
  · rcases h'.view id with same' | ⟨g', free', -⟩
    · exact Or.inr ⟨g, free, same'.trans retired⟩
    · rw [retired] at free'
      cases free'

/-- One id changes. -/
structure Changes (before after : WorldIdAllocator) (id : Nat) (slot : Option (IdState × JavaInt)) : Prop where
  committed : after.committedHighWaterMark = before.committedHighWaterMark
  view : ∀ other, after.view other = if other = id then slot else before.view other

/-- An id is handed out with a new generation, from the pool or past the high-water mark. -/
structure HandsOut (before after : WorldIdAllocator) (id : Nat) (g : JavaInt) : Prop where
  changes : Changes before after id (some (.pendingAdd, g))
  fresh : before.view id = none ∧ g = 1 ∨ ∃ old, before.view id = some (.free, old) ∧ g = old + 1 ∧ g ≠ 0

theorem reservePooled_views (memory : Memory) {list : List Nat} (h : self.Sound) (free : self.freeIds = list) :
    (∃ e after, reservePooled memory list self = .err e after ∧ Stutters self after) ∨
      (∃ after, reservePooled memory list self = .ok none after ∧ Stutters self after ∧ after.Sound) ∨
      ∃ id after, reservePooled memory list self = .ok (some id) after ∧
        ∃ mid g, Stutters self mid ∧ mid.Sound ∧ HandsOut mid after id g := by
  induction list generalizing self with
  | nil => exact Or.inr (Or.inl ⟨self, rfl, .of_view rfl rfl, h⟩)
  | cons id rest ih =>
    obtain ⟨pos, known, low, notPending, notFree, nodup⟩ := h.pooled free
    obtain ⟨generation, read, is⟩ := h.generation_run known
    rw [reservePooled, Call.bind_ok (state_run known), Call.rejectIf_bind_neg (by simp), Call.bind_ok read]
    by_cases usedUp : generation + 1 = 0
    · rw [if_pos usedUp, Call.modify_bind]
      have kept := retire_kept h free
      have views := view_edit_state (a := { self with freeIds := rest, states := self.states.set (id - 1) .retired })
        known h.sizes is rfl rfl
      have stutters : Stutters self { self with freeIds := rest, states := self.states.set (id - 1) .retired } := by
        refine ⟨rfl, fun other => ?_⟩
        by_cases same : other = id
        · subst same
          exact Or.inr ⟨generation, view_eq_some.mpr ⟨known, (by decide), is⟩, (views other).trans (if_pos rfl)⟩
        · exact Or.inl ((views other).trans (if_neg same))
      have step : setState id .retired { self with freeIds := rest } =
        .ok () { self with freeIds := rest, states := self.states.set (id - 1) .retired } := rfl
      rw [Call.bind_ok step]
      rcases ih kept.sound rfl with ⟨e, after, run, more⟩ | ⟨after, run, more, sound⟩ | ⟨other, after, run, mid, g, more, out⟩
      · exact Or.inl ⟨e, after, run, stutters.trans more⟩
      · exact Or.inr (Or.inl ⟨after, run, stutters.trans more, sound⟩)
      · exact Or.inr (Or.inr ⟨other, after, run, mid, g, stutters.trans more, out⟩)
    · rw [if_neg usedUp]
      rcases ensurePendingCapacity_spec self memory 1 with ⟨e, run⟩ | ⟨grown, run, regrown, room⟩
      · exact Or.inl ⟨e, self, Call.bind_err run, .of_view rfl rfl⟩
      · refine Or.inr (Or.inr ⟨id, ?_⟩)
        rw [Call.bind_ok run, Call.modify_bind]
        have room : grown.pendingIds.length < grown.pendingCapacity := by rwa [regrown.pendingIds]
        have pushed := @pushPending_run { grown with
          freeIds := rest, generations := grown.generations.set (id - 1) (generation + 1)
          states := grown.states.set (id - 1) .pendingAdd } id room
        have known' : grown.look id = some .free := by rw [look_congr regrown.states, known]
        refine ⟨_, (Call.bind_ok pushed : (pushPending id >>= fun _ => pure (some id)) _ = _), grown, generation + 1,
          .of_view regrown.committedHighWaterMark regrown.view, (regrown.kept h).sound, ⟨rfl, fun other => ?_⟩,
          Or.inr ⟨generation, view_eq_some.mpr ⟨known', (by decide), ?_⟩, rfl, usedUp⟩⟩
        · exact view_edit (n := .pendingAdd) known' (regrown.kept h).sound.sizes rfl rfl other
        · rw [regrown.generations]
          exact is

/-- New slots are unused. -/
theorem ensureSlotCapacity_view {memory : Memory} {required : Nat} (sizes : self.generations.length = self.states.length)
    (run : ensureSlotCapacity memory required self = .ok () after) : after.view = self.view := by
  unfold ensureSlotCapacity at run
  rw [Call.get_bind] at run
  split at run
  · obtain ⟨-, rfl⟩ := Outcome.ok.inj run
    rfl
  · obtain ⟨_, mid, granted, run⟩ := Call.bind_eq_ok run
    obtain ⟨-, same⟩ := Call.rejectIf_eq_ok granted
    subst mid
    obtain ⟨-, rfl⟩ := Outcome.ok.inj run
    funext other
    unfold view look
    by_cases zero : other = 0
    · rw [if_pos zero, if_pos zero]
    · rw [if_neg zero, if_neg zero]
      dsimp only
      by_cases old : other - 1 < self.states.length
      · rw [List.getElem?_append_left old, List.getElem?_append_left (sizes ▸ old)]
      · rw [List.getElem?_append_right (by omega), List.getElem?_append_right (by omega), sizes,
          List.getElem?_eq_none (show self.states.length ≤ other - 1 by omega), List.getElem?_replicate,
          List.getElem?_replicate]
        by_cases inside : other - 1 - self.states.length < growCapacity self.states.length required - self.states.length
        · rw [if_pos inside, if_pos inside]
          rfl
        · rw [if_neg inside]

theorem reserveFresh_views (memory : Memory) (h : self.Sound) :
    (∃ e after, reserveFresh memory self = .err e after ∧ Stutters self after) ∨
      ∃ id after, reserveFresh memory self = .ok id after ∧ ∃ mid g, Stutters self mid ∧ mid.Sound ∧ HandsOut mid after id g := by
  unfold reserveFresh
  rw [Call.get_bind]
  by_cases full : self.highWaterMark = maxId
  · exact Or.inl ⟨_, self, Call.rejectIf_bind_pos full _, .of_view rfl rfl⟩
  rw [Call.rejectIf_bind_neg full]
  have small : self.highWaterMark + 1 ≤ maxId := by
    have := h.bound
    omega
  rcases ensureSlotCapacity_spec h memory small with ⟨e, run⟩ |
    ⟨slots, run, sound, enough, freeIds, pendingIds, mark, committedMark, looks⟩
  · exact Or.inl ⟨e, self, Call.bind_err run, .of_view rfl rfl⟩
  have stutters : Stutters self slots := .of_view committedMark (ensureSlotCapacity_view h.sizes run)
  have sound : slots.Sound := by rwa [Sound, committedMark]
  rw [Call.bind_ok run]
  rcases ensurePendingCapacity_spec slots memory 1 with ⟨e, run⟩ | ⟨grown, run, regrown, room⟩
  · exact Or.inl ⟨e, slots, Call.bind_err run, stutters⟩
  have kept := regrown.kept sound
  have mark' : grown.highWaterMark = self.highWaterMark := regrown.highWaterMark.trans mark
  have slot : grown.highWaterMark + 1 ≤ grown.states.length := by rwa [mark', regrown.states]
  have room' : grown.pendingIds.length < grown.pendingCapacity := by rwa [regrown.pendingIds]
  obtain ⟨known, fresh, -, -⟩ := kept.sound.past slot
  obtain ⟨generation, read, is⟩ := kept.sound.generation_run known
  obtain rfl := Option.some.inj (is.symm.trans fresh)
  rw [← mark', Call.bind_ok run, Call.bind_ok (state_run known), Call.bind_ok read, Call.rejectIf_bind_neg (by simp)]
  have pushed := @pushPending_run { grown with
    generations := grown.generations.set grown.highWaterMark 1
    states := grown.states.set grown.highWaterMark .pendingAdd, highWaterMark := grown.highWaterMark + 1 }
    (grown.highWaterMark + 1) room'
  refine Or.inr ⟨grown.highWaterMark + 1, _, (Call.bind_ok pushed : (pushPending (grown.highWaterMark + 1) >>= fun _ =>
    pure (grown.highWaterMark + 1)) _ = _), grown, 1, stutters.trans (.of_view regrown.committedHighWaterMark regrown.view),
    kept.sound, ⟨rfl, fun other => ?_⟩, Or.inl ⟨?_, rfl⟩⟩
  · exact view_edit (n := .pendingAdd) known kept.sound.sizes rfl rfl other
  · rw [view, known]
    split
    · rename_i isState _
      rw [if_pos (Option.some.inj isState).symm]
    · rfl

theorem reserve_views (memory : Memory) (h : self.Sound) :
    (∃ e after, reserve memory self = .err e after ∧ Stutters self after) ∨
      ∃ id after, reserve memory self = .ok id after ∧ ∃ mid g, Stutters self mid ∧ mid.Sound ∧ HandsOut mid after id g := by
  unfold reserve
  rw [Call.get_bind]
  rcases reservePooled_views memory h rfl with ⟨e, after, run, more⟩ | ⟨after, run, more, sound⟩ |
    ⟨id, after, run, mid, g, more, out⟩
  · exact Or.inl ⟨e, after, Call.bind_err run, more⟩
  · rw [Call.bind_ok run]
    rcases reserveFresh_views memory sound with ⟨e, last, run', more'⟩ | ⟨id, last, run', mid, g, more', out⟩
    · exact Or.inl ⟨e, last, run', more.trans more'⟩
    · exact Or.inr ⟨id, last, run', mid, g, more.trans more', out⟩
  · rw [Call.bind_ok run]
    exact Or.inr ⟨id, after, rfl, mid, g, more, out⟩

/-! ### Handles -/

/-- There is room in the list for an id that is not pending, unless memory is refused. -/
theorem ensurePendingCapacity_cases (h : self.Sound) (memory : Memory) (known : self.look id = some .live) :
    (∃ e, ensurePendingCapacity memory 1 self = .err e self) ∧ memory.pending = false ∨
      ∃ after, ensurePendingCapacity memory 1 self = .ok () after ∧ Regrown self after ∧
        self.pendingIds.length + 1 ≤ after.pendingCapacity := by
  rcases ensurePendingCapacity_spec self memory 1 with ⟨e, run⟩ | grown
  · refine Or.inl ⟨⟨e, run⟩, ?_⟩
    have pos := look_pos known
    have each := h.each id pos
    rw [known] at each
    have within : self.committedHighWaterMark ≤ self.highWaterMark := h.within
    have bound := h.bound
    -- the pending ids and this one are different ids up to the high-water mark
    have few : (id :: self.pendingIds).length ≤ self.highWaterMark := by
      have nodup : (id :: self.pendingIds).Nodup := List.nodup_cons.mpr ⟨each.2.2, h.pendingNodup⟩
      have inside : (id :: self.pendingIds) ⊆ List.range' 1 self.highWaterMark := by
        intro other member
        rw [List.mem_range'_1]
        rcases List.mem_cons.mp member with rfl | later
        · have := each.1
          omega
        · obtain ⟨state, isState, pending⟩ := h.pendingState later
          have used : (self.view other).isSome = true := by
            obtain ⟨g, -, read⟩ := h.generation_run isState
            rw [view_eq_some.mpr ⟨isState, by rcases pending with rfl | rfl | rfl <;> decide, read⟩]
            rfl
          have := (view_isSome h).mp used
          omega
      have := (List.subperm_of_subset nodup inside).length_le
      rwa [List.length_range'] at this
    rw [List.length_cons] at few
    unfold ensurePendingCapacity requiredCapacity at run
    rw [Call.get_bind, Call.bind_bind, Call.rejectIf_bind_neg (by omega), Call.pure_bind'] at run
    split at run
    · cases run
    · cases granted : memory.pending with
      | false => rfl
      | true =>
        rw [Call.rejectIf_bind_neg (by rw [granted]; decide)] at run
        cases run
  · exact Or.inr grown

section Handles

variable {handle generation : JavaInt}

/-- A handle of the current generation is one of a slot's. -/
theorem current_iff (h : self.Sound) : Current self handle generation state ↔
    self.view handle.toNat = some (state, generation) := by
  rw [view_eq_some]
  constructor
  · exact fun current => ⟨current.known, current.used, current.isCurrent⟩
  · rintro ⟨known, used, isCurrent⟩
    have pos := look_pos known
    have inside : handle.toNat ≤ self.highWaterMark := by
      refine ((view_isSome h).mp ?_).2
      rw [view_eq_some.mpr ⟨known, used, isCurrent⟩]
      rfl
    have bound := h.bound
    have signed := BitVec.toInt_eq_toNat_cond handle
    unfold maxId at bound
    rw [if_pos (by omega)] at signed
    exact ⟨by omega, by omega, known, used, isCurrent⟩

/-- Where no slot has the handle, the calls that need one throw and change nothing. -/
theorem requireCurrentGeneration_cases (h : self.Sound) (handle generation : JavaInt) :
    (∃ e, requireCurrentGeneration handle generation self = .err e self) ∧
        (∀ state, self.view handle.toNat ≠ some (state, generation)) ∨
      ∃ state, Current self handle generation state := by
  rcases requireCurrentGeneration_spec h handle generation with ⟨e, run⟩ | current
  · refine Or.inl ⟨⟨e, run⟩, fun state is => ?_⟩
    rw [((current_iff h).mpr is).run] at run
    cases run
  · exact Or.inr current

theorem requireUsable_views (h : self.Sound) (handle generation : JavaInt) :
    (∃ e, requireUsable handle generation self = .err e self) ∧
        self.view handle.toNat ≠ some (.live, generation) ∧ self.view handle.toNat ≠ some (.pendingAdd, generation) ∨
      requireUsable handle generation self = .ok () self ∧
        (self.view handle.toNat = some (.live, generation) ∨ self.view handle.toNat = some (.pendingAdd, generation)) := by
  unfold requireUsable
  rcases requireCurrentGeneration_cases h handle generation with ⟨⟨e, run⟩, off⟩ | ⟨state, current⟩
  · exact Or.inl ⟨⟨e, Call.bind_err run⟩, off _, off _⟩
  · have is := (current_iff h).mp current
    rw [Call.bind_ok current.run, Call.bind_ok (state_run current.known), is]
    by_cases dead : state ≠ .live ∧ state ≠ .pendingAdd
    · exact Or.inl ⟨⟨.illegalState, by rw [Call.rejectIf, if_pos dead]⟩, by simpa using dead.1, by simpa using dead.2⟩
    · refine Or.inr ⟨by rw [Call.rejectIf, if_neg dead], ?_⟩
      rw [not_and_or, not_not, not_not] at dead
      exact dead.imp (fun same => by rw [same]) fun same => by rw [same]

/-- Removing marks the slot. -/
theorem remove_views (memory : Memory) (h : self.Sound) (handle generation : JavaInt) :
    (∃ e, remove memory handle generation self = .err e self) ∧ (memory.pending = true →
        self.view handle.toNat ≠ some (.live, generation) ∧ self.view handle.toNat ≠ some (.pendingAdd, generation)) ∨
      ∃ after, remove memory handle generation self = .ok () after ∧
        (self.view handle.toNat = some (.live, generation) ∧
          Changes self after handle.toNat (some (.pendingRemove, generation)) ∨
        self.view handle.toNat = some (.pendingAdd, generation) ∧
          Changes self after handle.toNat (some (.pendingAddRemove, generation))) := by
  unfold remove
  rcases requireCurrentGeneration_cases h handle generation with ⟨⟨e, run⟩, off⟩ | ⟨state, current⟩
  · exact Or.inl ⟨⟨e, Call.bind_err run⟩, fun _ => ⟨off _, off _⟩⟩
  have is := (current_iff h).mp current
  rw [Call.bind_ok current.run, Call.bind_ok (state_run current.known), is]
  cases state with
  | live =>
    rcases ensurePendingCapacity_cases h memory current.known with ⟨⟨e, run⟩, refused⟩ | ⟨grown, run, regrown, room⟩
    · exact Or.inl ⟨⟨e, Call.bind_err run⟩, fun granted => absurd granted (by rw [refused]; decide)⟩
    · have room' : grown.pendingIds.length < grown.pendingCapacity := by rwa [regrown.pendingIds]
      have pushed := @pushPending_run { grown with states := grown.states.set (handle.toNat - 1) .pendingRemove }
        handle.toNat room'
      have current' := regrown.current current
      refine Or.inr ⟨_, (Call.bind_ok run).trans pushed, Or.inl ⟨rfl, regrown.committedHighWaterMark, fun other => ?_⟩⟩
      rw [← regrown.view]
      exact view_edit_state (a := { grown with
        states := grown.states.set (handle.toNat - 1) .pendingRemove, pendingIds := handle.toNat :: grown.pendingIds })
        (n := .pendingRemove) current'.known (regrown.kept h).sound.sizes current'.isCurrent rfl rfl other
  | pendingAdd =>
    exact Or.inr ⟨_, rfl, Or.inr ⟨rfl, rfl, fun other =>
      view_edit_state (a := { self with states := self.states.set (handle.toNat - 1) .pendingAddRemove })
        (n := .pendingAddRemove) current.known h.sizes current.isCurrent rfl rfl other⟩⟩
  | unused | free | pendingRemove | pendingAddRemove | retired => exact Or.inl ⟨⟨_, rfl⟩, fun _ => ⟨by simp, by simp⟩⟩

end Handles

/-! ### Cancelling -/

section Cancelling

variable {handle generation : JavaInt}

/-- The last id past the committed ones is given back. -/
theorem cancel_tail_sound (h : self.Sound) (known : self.look id = some .pendingAdd)
    (last : self.pendingIds.head? = some id) (mark : id = self.highWaterMark) (high : self.committedHighWaterMark < id) :
    Sound { self with
      pendingIds := self.pendingIds.tail, states := self.states.set (id - 1) .unused
      generations := self.generations.set (id - 1) 0, highWaterMark := self.highWaterMark - 1 } := by
  obtain ⟨others, gone, nodup, room⟩ := h.popped last
  have pos := look_pos known
  have each := h.each id pos
  rw [known] at each
  have edits : Edits self { self with
      pendingIds := self.pendingIds.tail, states := self.states.set (id - 1) .unused
      generations := self.generations.set (id - 1) 0, highWaterMark := self.highWaterMark - 1 } id .unused :=
    ⟨rfl, Or.inr ⟨0, rfl⟩, fun _ _ => Iff.rfl, others, h.freeNodup, nodup, h.freeRoom, rfl, room⟩
  have fits := h.fits
  have bound := h.bound
  have inside := look_lt known
  refine ⟨edits.sizes h, ?_, ?_, ?_, h.freeNodup, nodup, h.freePos, fun other member =>
    h.pendingPos other (List.mem_of_mem_tail member), h.freeRoom, h.freeLimit, room, fun other pos' => ?_⟩
  · simp only [List.length_set]
    omega
  · dsimp only
    omega
  · dsimp only
    omega
  · rw [edits.look known]
    by_cases same : other = id
    · subst same
      rw [if_pos rfl]
      refine ⟨by dsimp only; omega, each.2.1, gone, ?_⟩
      unfold freshGeneration
      dsimp only
      rw [List.getElem?_set, if_pos rfl, if_pos (h.sizes ▸ inside)]
    · rw [if_neg same, edits.fresh pos pos' same, edits.pendingIds other same]
      have old := h.each other pos'
      dsimp only
      rw [show self.highWaterMark = (self.highWaterMark - 1) + 1 by omega] at old
      exact old.lower (by omega)

/-- An id from the pool goes back to it. -/
theorem cancel_pooled_sound (h : self.Sound) (known : self.look id = some .pendingAdd)
    (last : self.pendingIds.head? = some id) (low : id ≤ self.committedHighWaterMark)
    (space : self.freeIds.length < self.freeCapacity) :
    Sound { self with
      pendingIds := self.pendingIds.tail, states := self.states.set (id - 1) .free
      freeIds := id :: self.freeIds } := by
  obtain ⟨others, gone, nodup, room⟩ := h.popped last
  have each := h.each id (look_pos known)
  rw [known] at each
  have edits : Edits self { self with
      pendingIds := self.pendingIds.tail, states := self.states.set (id - 1) .free
      freeIds := id :: self.freeIds } id .free := by
    refine ⟨rfl, Or.inl rfl, fun other different => ?_, others, List.nodup_cons.mpr ⟨each.2.1, h.freeNodup⟩,
      nodup, space, rfl, room⟩
    rw [List.mem_cons]
    exact ⟨fun member => member.resolve_left different, Or.inr⟩
  exact edits.sound h known rfl ⟨low, List.mem_cons_self, gone⟩

/-- A cancelled reservation leaves its slot unused at the end, and free elsewhere. -/
theorem cancelPendingAdd_views (memory : Memory) (h : self.Sound) (handle generation : JavaInt) :
    (∃ e, cancelPendingAdd memory handle generation self = .err e self) ∨
      ∃ after, cancelPendingAdd memory handle generation self = .ok () after ∧ after.Sound ∧
        self.view handle.toNat = some (.pendingAdd, generation) ∧
        Changes self after handle.toNat
          (if self.committedHighWaterMark < handle.toNat then none else some (.free, generation)) := by
  unfold cancelPendingAdd
  rcases requireCurrentGeneration_cases h handle generation with ⟨⟨e, run⟩, -⟩ | ⟨state, current⟩
  · exact Or.inl ⟨e, Call.bind_err run⟩
  rw [Call.bind_ok current.run, Call.bind_ok (state_run current.known)]
  by_cases isPending : state = .pendingAdd
  swap
  · exact Or.inl ⟨_, Call.rejectIf_bind_pos isPending _⟩
  subst isPending
  have is := (current_iff h).mp current
  rw [Call.rejectIf_bind_neg (not_not.mpr rfl)]
  by_cases last : self.pendingIds.head? = some handle.toNat
  swap
  · refine Or.inl ⟨.illegalState, Call.bind_err ?_⟩
    unfold popPending
    rw [Call.get_bind, Call.rejectIf, if_pos last]
  rw [Call.bind_ok (popPending_run last), Call.get_bind]
  by_cases high : self.committedHighWaterMark < handle.toNat
  · rw [if_pos high]
    by_cases mark : handle.toNat = self.highWaterMark
    swap
    · exact Or.inl ⟨_, Call.rejectIf_bind_pos mark _⟩
    rw [Call.rejectIf_bind_neg (not_not.mpr mark)]
    refine Or.inr ⟨_, rfl, cancel_tail_sound h current.known last mark high, is, rfl, fun other => ?_⟩
    rw [if_pos high]
    exact view_edit (a := { self with
      pendingIds := self.pendingIds.tail, states := self.states.set (handle.toNat - 1) .unused
      generations := self.generations.set (handle.toNat - 1) 0, highWaterMark := self.highWaterMark - 1 })
      (n := .unused) current.known h.sizes rfl rfl other
  · rw [if_neg high]
    rcases ensureFreeCapacity_spec self memory 1 with ⟨e, run⟩ | ⟨grown, run, regrown, room⟩
    · exact Or.inl ⟨e, Call.bind_err run⟩
    have current' := regrown.current current
    have space : grown.freeIds.length < grown.freeCapacity := by rwa [regrown.freeIds]
    have pushed := @pushFree_run { grown with
      pendingIds := grown.pendingIds.tail, states := grown.states.set (handle.toNat - 1) .free } handle.toNat space
    refine Or.inr ⟨_, (Call.bind_ok run).trans pushed, ?_, is, regrown.committedHighWaterMark, fun other => ?_⟩
    · exact cancel_pooled_sound (regrown.kept h).sound current'.known (by rw [regrown.pendingIds, last])
        (by rw [regrown.committedHighWaterMark]; exact Nat.le_of_not_lt high) space
    · rw [if_neg high, ← regrown.view]
      exact view_edit_state (a := { grown with
        pendingIds := grown.pendingIds.tail, states := grown.states.set (handle.toNat - 1) .free
        freeIds := handle.toNat :: grown.freeIds }) (n := .free) current'.known (regrown.kept h).sound.sizes
        current'.isCurrent rfl rfl other

/-- A cancelled removal leaves the slot as it was before the removal. -/
theorem cancelPendingRemove_views (h : self.Sound) (handle generation : JavaInt) :
    (∃ e, cancelPendingRemove handle generation self = .err e self) ∨
      ∃ after, cancelPendingRemove handle generation self = .ok () after ∧ after.Sound ∧
        (self.view handle.toNat = some (.pendingRemove, generation) ∧
          Changes self after handle.toNat (some (.live, generation)) ∨
        self.view handle.toNat = some (.pendingAddRemove, generation) ∧
          Changes self after handle.toNat (some (.pendingAdd, generation))) := by
  unfold cancelPendingRemove
  rcases requireCurrentGeneration_cases h handle generation with ⟨⟨e, run⟩, -⟩ | ⟨state, current⟩
  · exact Or.inl ⟨e, Call.bind_err run⟩
  have is := (current_iff h).mp current
  have each := h.each _ (look_pos current.known)
  rw [current.known] at each
  rw [Call.bind_ok current.run, Call.bind_ok (state_run current.known)]
  cases state with
  | pendingRemove =>
    by_cases last : self.pendingIds.head? = some handle.toNat
    swap
    · refine Or.inl ⟨.illegalState, Call.bind_err ?_⟩
      unfold popPending
      rw [Call.get_bind, Call.rejectIf, if_pos last]
    obtain ⟨others, gone, nodup, room⟩ := h.popped last
    have edits : Edits self { self with
        pendingIds := self.pendingIds.tail, states := self.states.set (handle.toNat - 1) .live } handle.toNat .live :=
      ⟨rfl, Or.inl rfl, fun _ _ => Iff.rfl, others, h.freeNodup, nodup, h.freeRoom, rfl, room⟩
    refine Or.inr ⟨_, Call.bind_ok (popPending_run last), edits.sound h current.known rfl ⟨each.1, each.2.1, gone⟩,
      Or.inl ⟨is, rfl, fun other => ?_⟩⟩
    exact view_edit_state (a := { self with
      pendingIds := self.pendingIds.tail, states := self.states.set (handle.toNat - 1) .live }) (n := .live)
      current.known h.sizes current.isCurrent rfl rfl other
  | pendingAddRemove =>
    have edits : Edits self { self with states := self.states.set (handle.toNat - 1) .pendingAdd }
        handle.toNat .pendingAdd :=
      ⟨rfl, Or.inl rfl, fun _ _ => Iff.rfl, fun _ _ => Iff.rfl, h.freeNodup, h.pendingNodup, h.freeRoom, rfl, h.pendingRoom⟩
    refine Or.inr ⟨_, rfl, edits.sound h current.known rfl each, Or.inr ⟨is, rfl, fun other => ?_⟩⟩
    exact view_edit_state (a := { self with states := self.states.set (handle.toNat - 1) .pendingAdd }) (n := .pendingAdd)
      current.known h.sizes current.isCurrent rfl rfl other
  | unused | free | live | pendingAdd | retired => exact Or.inl ⟨_, rfl⟩

end Cancelling

/-! ### Committing -/

/-- What a commit makes of a slot. -/
def settled : IdState × JavaInt → IdState × JavaInt
  | (.pendingAdd, g) => (.live, g)
  | (.pendingRemove, g) | (.pendingAddRemove, g) => (if g = -1 then .retired else .free, g)
  | slot => slot

/-- The loop settles each id once. -/
theorem commitPending_views {ids : List Nat} (nodup : ids.Nodup) (sizes : self.generations.length = self.states.length)
    (positive : ∀ id ∈ ids, 0 < id) {value : Unit} (run : commitPending ids self = .ok value after) (other : Nat) :
    after.view other = if other ∈ ids then (self.view other).map settled else self.view other := by
  induction ids generalizing self with
  | nil =>
    obtain ⟨-, rfl⟩ := Outcome.ok.inj run
    rw [if_neg List.not_mem_nil]
  | cons id ids ih =>
    obtain ⟨notLater, nodup'⟩ := List.nodup_cons.mp nodup
    obtain ⟨state, mid, found, rest⟩ := Call.bind_eq_ok run
    unfold WorldIdAllocator.state at found
    rw [Call.get_bind] at found
    obtain ⟨read, same⟩ := Call.okOr_eq_ok found
    subst mid
    have pos := positive id List.mem_cons_self
    have known : self.look id = some state := by rw [look, if_neg (by omega), read]
    have inside : id - 1 < self.generations.length := sizes ▸ look_lt known
    have isGeneration := List.getElem?_eq_getElem inside
    have generationRun : generationAt id self = .ok self.generations[id - 1] self := by
      unfold generationAt
      rw [Call.get_bind, isGeneration]
      rfl
    have one : ∀ n (next : WorldIdAllocator) (value : Unit), commitPending ids next = .ok value after →
        (settled (state, self.generations[id - 1])) = (n, self.generations[id - 1]) → state ≠ .unused →
        n ≠ .unused → next.states = self.states.set (id - 1) n → next.generations = self.generations →
        after.view other = if other ∈ id :: ids then (self.view other).map settled else self.view other := by
      intro n next value rest isSettled used used' states generations
      have views := view_edit_state (n := n) known sizes isGeneration states generations other
      rw [ih nodup' (by rw [states, List.length_set, generations, sizes])
        (fun later member => positive later (List.mem_cons_of_mem _ member)) rest, views]
      by_cases here : other = id
      · subst here
        rw [if_neg notLater, if_pos rfl, if_neg used', if_pos List.mem_cons_self,
          view_eq_some.mpr ⟨known, used, isGeneration⟩, Option.map_some, isSettled]
      · rw [if_neg here]
        simp only [List.mem_cons, here, false_or]
    cases state with
    | pendingAdd => exact one .live _ _ rest rfl (by decide) (by decide) rfl rfl
    | pendingRemove | pendingAddRemove =>
      obtain ⟨_, next, body, rest⟩ := Call.bind_eq_ok rest
      unfold releaseCommitted at body
      rw [Call.bind_ok generationRun] at body
      by_cases spent : self.generations[id - 1] = -1
      · rw [if_pos spent] at body
        obtain ⟨-, rfl⟩ := Outcome.ok.inj body
        exact one .retired _ _ rest (by rw [settled, if_pos spent]) (by decide) (by decide) rfl rfl
      · rw [if_neg spent] at body
        obtain ⟨_, marked, first, body⟩ := Call.bind_eq_ok body
        obtain ⟨-, rfl⟩ := Outcome.ok.inj first
        unfold pushFree at body
        rw [Call.get_bind] at body
        obtain ⟨_, mid, granted, body⟩ := Call.bind_eq_ok body
        obtain ⟨-, same⟩ := Call.rejectIf_eq_ok granted
        subst mid
        obtain ⟨-, rfl⟩ := Outcome.ok.inj body
        exact one .free _ _ rest (by rw [settled, if_neg spent]) (by decide) (by decide) rfl rfl
    | unused | free | live | retired => cases rest

/-- A commit of a sound allocator settles every slot. -/
theorem commitBatch_views (h : self.Sound) {value : Unit} (run : commitBatch self = .ok value after) (id : Nat) :
    after.view id = (self.view id).map settled := by
  unfold commitBatch at run
  rw [Call.get_bind] at run
  obtain ⟨_, last, loop, run⟩ := Call.bind_eq_ok run
  obtain ⟨-, rfl⟩ := Outcome.ok.inj run
  have views := commitPending_views ((List.reverse_perm _).nodup_iff.mpr h.pendingNodup) h.sizes
    (fun id member => h.pendingPos id (List.mem_reverse.mp member)) loop id
  refine (congrFun (view_congr rfl rfl) id : _ = last.view id).trans (views.trans ?_)
  by_cases pending : id ∈ self.pendingIds
  · rw [if_pos (List.mem_reverse.mpr pending)]
  · rw [if_neg (mt List.mem_reverse.mp pending)]
    cases read : self.view id with
    | none => rfl
    | some slot =>
      obtain ⟨state, g⟩ := slot
      obtain ⟨known, used, -⟩ := view_eq_some.mp read
      have each := h.each id (look_pos known)
      rw [known] at each
      cases state with
      | unused => exact absurd rfl used
      | free | live | retired => rfl
      | pendingAdd | pendingRemove | pendingAddRemove => exact absurd each.2.2 pending

end WorldIdAllocator

end Hynergy
