import Hynergy.Client.IdTracking

/-!
# What the calls on an allocator do

Every call leaves a sound allocator. A call that throws leaves both pools as they are; the others
take the current pool one use further, and a commit makes it the committed one.
-/

namespace Hynergy

open Lib

namespace WorldIdAllocator

variable {self after : WorldIdAllocator} {id : Nat}

/-- Nothing that is known changes. -/
structure Kept (before after : WorldIdAllocator) : Prop where
  sound : after.Sound
  committed : IdPool.Same before.committedPool after.committedPool
  current : IdPool.Same before.currentPool after.currentPool

theorem Kept.refl (h : self.Sound) : Kept self self := ⟨h, .refl _, .refl _⟩

theorem Kept.trans {third : WorldIdAllocator} (h : Kept self after) (h' : Kept after third) : Kept self third :=
  ⟨h'.sound, h.committed.trans h'.committed, h.current.trans h'.current⟩

theorem Regrown.kept (h : Regrown self after) (sound : self.Sound) : Kept self after := by
  refine ⟨?_, ⟨h.committedHighWaterMark, fun other => ?_⟩, h.highWaterMark, fun other => ?_⟩
  · rw [Sound, h.committedHighWaterMark]
    exact h.sound sound
  · simp only [committedPool, look_congr h.states]
  · simp only [currentPool, look_congr h.states]

/-! ### Reserving -/

/-- An id is handed out that the current pool takes. -/
structure Reserved (before after : WorldIdAllocator) (id : Nat) : Prop where
  sound : after.Sound
  committed : IdPool.Same before.committedPool after.committedPool
  accepts : before.currentPool.Accepts maxId (.add id)
  current : IdPool.Same (before.currentPool.apply (.add id)) after.currentPool
  pending : after.look id = some .pendingAdd
  last : after.pendingIds.head? = some id
  fresh : after.committedHighWaterMark < id → id = after.highWaterMark ∧ id = before.highWaterMark + 1
  room : id ≤ after.committedHighWaterMark → after.freeIds.length < after.freeCapacity

theorem Kept.reserved {third : WorldIdAllocator} (h : Kept self after) (h' : Reserved after third id) :
    Reserved self third id :=
  ⟨h'.sound, h.committed.trans h'.committed, h.current.accepts.mp h'.accepts, (h.current.apply _).trans h'.current,
    h'.pending, h'.last, fun high => ⟨(h'.fresh high).1, (h'.fresh high).2.trans (congrArg (· + 1) h.current.slots)⟩,
    h'.room⟩

/-- The first id of the pool. -/
theorem SoundUpTo.pooled {committed : Nat} (h : SoundUpTo committed self) {rest : List Nat}
    (free : self.freeIds = id :: rest) :
    0 < id ∧ self.look id = some .free ∧ id ≤ committed ∧ id ∉ self.pendingIds ∧ id ∉ rest ∧ rest.Nodup := by
  have member : id ∈ self.freeIds := free ▸ List.mem_cons_self
  have pos := h.freePos id member
  have each := h.each id pos
  have nodup := h.freeNodup
  rw [free, List.nodup_cons] at nodup
  cases look : self.look id with
  | none =>
    rw [look] at each
    exact absurd member each.2.1
  | some state =>
    rw [look] at each
    cases state with
    | free => exact ⟨pos, rfl, each.1, each.2.2, nodup.1, nodup.2⟩
    | unused => exact absurd member each.2.1
    | live | pendingAdd | pendingRemove | pendingAddRemove | retired => exact absurd member each.2.1

theorem mem_tail_of_ne {rest : List Nat} (free : self.freeIds = id :: rest) {other : Nat} (different : other ≠ id) :
    other ∈ rest ↔ other ∈ self.freeIds := by
  rw [free, List.mem_cons]
  exact ⟨Or.inr, fun member => member.resolve_left different⟩

theorem retire_kept (h : self.Sound) {rest : List Nat} (free : self.freeIds = id :: rest) :
    Kept self { self with freeIds := rest, states := self.states.set (id - 1) .retired } := by
  obtain ⟨pos, known, low, notPending, notFree, nodup⟩ := h.pooled free
  have room := h.freeRoom
  rw [free, List.length_cons] at room
  have edits : Edits self { self with freeIds := rest, states := self.states.set (id - 1) .retired } id .retired :=
    ⟨rfl, Or.inl rfl, fun _ different => mem_tail_of_ne free different, fun _ _ => Iff.rfl, nodup, h.pendingNodup,
      Nat.le_of_succ_le room, rfl, h.pendingRoom⟩
  refine ⟨edits.sound h known rfl ⟨low, notFree, notPending⟩, ⟨rfl, fun other => ?_⟩, rfl, fun other => ?_⟩
  · refine (edits.live known other).trans ?_
    split
    · rename_i same
      rw [same]
      simp [committedPool, known]
    · rfl
  · refine (edits.live known other).trans ?_
    split
    · rename_i same
      rw [same]
      simp [currentPool, known]
    · rfl

theorem pushPending_run (id : Nat) (room : self.pendingIds.length < self.pendingCapacity) :
    pushPending id self = .ok () { self with pendingIds := id :: self.pendingIds } := by
  unfold pushPending
  rw [Call.get_bind, Call.rejectIf_bind_neg (by omega)]
  rfl

theorem pushFree_run (id : Nat) (room : self.freeIds.length < self.freeCapacity) :
    pushFree id self = .ok () { self with freeIds := id :: self.freeIds } := by
  unfold pushFree
  rw [Call.get_bind, Call.rejectIf_bind_neg (by omega)]
  rfl

theorem take_reserved (h : self.Sound) {rest : List Nat} (generation : JavaInt) (free : self.freeIds = id :: rest)
    (room : self.pendingIds.length < self.pendingCapacity) :
    Reserved self { self with
      freeIds := rest, generations := self.generations.set (id - 1) generation
      states := self.states.set (id - 1) .pendingAdd, pendingIds := id :: self.pendingIds } id := by
  obtain ⟨pos, known, low, notPending, notFree, nodup⟩ := h.pooled free
  have freeRoom := h.freeRoom
  rw [free, List.length_cons] at freeRoom
  have edits : Edits self { self with
      freeIds := rest, generations := self.generations.set (id - 1) generation
      states := self.states.set (id - 1) .pendingAdd, pendingIds := id :: self.pendingIds } id .pendingAdd := by
    refine ⟨rfl, Or.inr ⟨generation, rfl⟩, fun _ different => mem_tail_of_ne free different, fun other different => ?_,
      nodup, List.nodup_cons.mpr ⟨notPending, h.pendingNodup⟩, Nat.le_of_succ_le freeRoom, rfl, room⟩
    rw [List.mem_cons]
    exact ⟨fun member => member.resolve_left different, Or.inr⟩
  have within : self.committedHighWaterMark ≤ self.highWaterMark := h.within
  have bound := h.bound
  refine ⟨edits.sound h known rfl ⟨low.trans within, notFree, List.mem_cons_self⟩, ⟨rfl, fun other => ?_⟩,
    ⟨pos, low.trans (within.trans bound), Nat.le_succ_of_le (low.trans within), by simp [currentPool, known]⟩,
    ⟨(Nat.max_eq_left (low.trans within)).symm, fun other => ?_⟩, ?_, rfl, fun high => absurd high (by
      dsimp only
      omega), fun _ => freeRoom⟩
  · refine (edits.live known other).trans ?_
    split
    · rename_i same
      rw [same]
      simp [committedPool, known]
    · rfl
  · refine (edits.live known other).trans ?_
    simp only [IdPool.apply, currentPool]
    split
    · rename_i same
      simp [same]
    · rename_i different
      simp [different]
  · rw [edits.look known, if_pos rfl]

theorem reservePooled_spec (memory : Memory) {list : List Nat} (h : self.Sound) (free : self.freeIds = list) :
    (∃ e after, reservePooled memory list self = .err e after ∧ Kept self after) ∨
      (∃ after, reservePooled memory list self = .ok none after ∧ Kept self after) ∨
      ∃ id after, reservePooled memory list self = .ok (some id) after ∧ Reserved self after id := by
  induction list generalizing self with
  | nil => exact Or.inr (Or.inl ⟨self, rfl, .refl h⟩)
  | cons id rest ih =>
    obtain ⟨pos, known, low, notPending, notFree, nodup⟩ := h.pooled free
    obtain ⟨generation, read, -⟩ := h.generation_run known
    rw [reservePooled, Call.bind_ok (state_run known), Call.rejectIf_bind_neg (by simp), Call.bind_ok read]
    by_cases usedUp : generation + 1 = 0
    · rw [if_pos usedUp, Call.modify_bind]
      have kept := retire_kept h free
      have step : setState id .retired { self with freeIds := rest } =
        .ok () { self with freeIds := rest, states := self.states.set (id - 1) .retired } := rfl
      rw [Call.bind_ok step]
      rcases ih kept.sound rfl with ⟨e, after, run, kept'⟩ | ⟨after, run, kept'⟩ | ⟨other, after, run, reserved⟩
      · exact Or.inl ⟨e, after, run, kept.trans kept'⟩
      · exact Or.inr (Or.inl ⟨after, run, kept.trans kept'⟩)
      · exact Or.inr (Or.inr ⟨other, after, run, kept.reserved reserved⟩)
    · rw [if_neg usedUp]
      rcases ensurePendingCapacity_spec self memory 1 with ⟨e, run⟩ | ⟨grown, run, regrown, room⟩
      · exact Or.inl ⟨e, self, Call.bind_err run, .refl h⟩
      · refine Or.inr (Or.inr ⟨id, ?_⟩)
        rw [Call.bind_ok run, Call.modify_bind]
        have room : grown.pendingIds.length < grown.pendingCapacity := by rwa [regrown.pendingIds]
        have pushed := @pushPending_run { grown with
          freeIds := rest, generations := grown.generations.set (id - 1) (generation + 1)
          states := grown.states.set (id - 1) .pendingAdd } id room
        refine ⟨_, ?_, (regrown.kept h).reserved (take_reserved (regrown.kept h).sound (generation + 1)
          (regrown.freeIds.trans free) room)⟩
        show (pushPending id >>= fun _ => pure (some id)) _ = _
        rw [Call.bind_ok pushed]
        rfl

theorem Fits.raise {state : Option IdState} {committed mark other : Nat} {free pending fresh : Prop}
    (h : Fits state committed mark other free pending fresh) (different : other ≠ mark + 1) :
    Fits state committed (mark + 1) other free pending fresh := by
  unfold Fits at h ⊢
  split at h
  · exact ⟨by omega, h.2⟩
  · exact ⟨by omega, h.2⟩
  · exact h
  · exact h
  · exact ⟨by omega, h.2⟩
  · exact h
  · exact ⟨by omega, h.2⟩
  · exact h

/-- The slot past the high-water mark. -/
theorem SoundUpTo.past {committed : Nat} (h : SoundUpTo committed self)
    (slot : self.highWaterMark + 1 ≤ self.states.length) :
    self.look (self.highWaterMark + 1) = some .unused ∧ self.freshGeneration (self.highWaterMark + 1) ∧
      self.highWaterMark + 1 ∉ self.freeIds ∧ self.highWaterMark + 1 ∉ self.pendingIds := by
  have within := h.within
  have each := h.each (self.highWaterMark + 1) (Nat.succ_pos _)
  cases look : self.look (self.highWaterMark + 1) with
  | none =>
    unfold WorldIdAllocator.look at look
    rw [if_neg (Nat.succ_ne_zero _), Nat.add_sub_cancel, List.getElem?_eq_getElem (by omega)] at look
    exact absurd look nofun
  | some state =>
    rw [look] at each
    cases state with
    | unused => exact ⟨rfl, each.2.2.2, each.2.1, each.2.2.1⟩
    | free | live | pendingAdd | pendingRemove | pendingAddRemove | retired => exact absurd each.1 (by omega)

theorem fresh_reserved (h : self.Sound) (generation : JavaInt) (slot : self.highWaterMark + 1 ≤ self.states.length)
    (small : self.highWaterMark + 1 ≤ maxId) (room : self.pendingIds.length < self.pendingCapacity) :
    Reserved self { self with
      generations := self.generations.set self.highWaterMark generation
      states := self.states.set self.highWaterMark .pendingAdd, highWaterMark := self.highWaterMark + 1
      pendingIds := (self.highWaterMark + 1) :: self.pendingIds } (self.highWaterMark + 1) := by
  obtain ⟨known, -, notFree, notPending⟩ := h.past slot
  have within : self.committedHighWaterMark ≤ self.highWaterMark := h.within
  have edits : Edits self { self with
      generations := self.generations.set self.highWaterMark generation
      states := self.states.set self.highWaterMark .pendingAdd, highWaterMark := self.highWaterMark + 1
      pendingIds := (self.highWaterMark + 1) :: self.pendingIds } (self.highWaterMark + 1) .pendingAdd := by
    refine ⟨rfl, Or.inr ⟨generation, rfl⟩, fun _ _ => Iff.rfl, fun other different => ?_, h.freeNodup,
      List.nodup_cons.mpr ⟨notPending, h.pendingNodup⟩, h.freeRoom, rfl, room⟩
    rw [List.mem_cons]
    exact ⟨fun member => member.resolve_left different, Or.inr⟩
  refine ⟨⟨edits.sizes h, ?_, small, Nat.le_succ_of_le within, h.freeNodup, edits.pendingNodup, h.freePos, ?_,
    h.freeRoom, h.freeLimit, room, fun other pos => ?_⟩, ⟨rfl, fun other => ?_⟩, ⟨Nat.succ_pos _, small, le_refl _, ?_⟩,
    ⟨(Nat.max_eq_right (Nat.le_succ _)).symm, fun other => ?_⟩, ?_, rfl, fun _ => ⟨rfl, rfl⟩, fun low => absurd low (by
      dsimp only
      omega)⟩
  · simp only [List.length_set]
    exact slot
  · intro other member
    rcases List.mem_cons.mp member with rfl | member
    · exact Nat.succ_pos _
    · exact h.pendingPos other member
  · rw [edits.look known]
    by_cases same : other = self.highWaterMark + 1
    · subst same
      rw [if_pos rfl]
      exact ⟨le_refl _, notFree, List.mem_cons_self⟩
    · rw [if_neg same, edits.pendingIds other same, edits.fresh (Nat.succ_pos _) pos same]
      exact (h.each other pos).raise same
  · refine (edits.live known other).trans ?_
    split
    · rename_i same
      rw [same]
      simp [committedPool, known]
    · rfl
  · simp [currentPool, known]
  · refine (edits.live known other).trans ?_
    simp only [IdPool.apply, currentPool]
    split
    · rename_i same
      simp [same]
    · rename_i different
      simp [different]
  · rw [edits.look known, if_pos rfl]

theorem reserveFresh_spec (memory : Memory) (h : self.Sound) :
    (∃ e after, reserveFresh memory self = .err e after ∧ Kept self after) ∨
      ∃ id after, reserveFresh memory self = .ok id after ∧ Reserved self after id := by
  unfold reserveFresh
  rw [Call.get_bind]
  by_cases full : self.highWaterMark = maxId
  · exact Or.inl ⟨_, self, Call.rejectIf_bind_pos full _, .refl h⟩
  rw [Call.rejectIf_bind_neg full]
  have small : self.highWaterMark + 1 ≤ maxId := by
    have := h.bound
    omega
  rcases ensureSlotCapacity_spec h memory small with ⟨e, run⟩ |
    ⟨slots, run, sound, enough, freeIds, pendingIds, mark, committedMark, looks⟩
  · exact Or.inl ⟨e, self, Call.bind_err run, .refl h⟩
  have kept : Kept self slots := by
    refine ⟨?_, ⟨committedMark, fun other => ?_⟩, mark, fun other => ?_⟩
    · rw [Sound, committedMark]
      exact sound
    · rcases looks other with same | ⟨none', unused⟩
      · simp only [committedPool, same]
      · simp [committedPool, none', unused]
    · rcases looks other with same | ⟨none', unused⟩
      · simp only [currentPool, same]
      · simp [currentPool, none', unused]
  rw [Call.bind_ok run]
  rcases ensurePendingCapacity_spec slots memory 1 with ⟨e, run⟩ | ⟨grown, run, regrown, room⟩
  · exact Or.inl ⟨e, slots, Call.bind_err run, kept⟩
  have kept' := regrown.kept kept.sound
  have mark' : grown.highWaterMark = self.highWaterMark := regrown.highWaterMark.trans mark
  have slot : grown.highWaterMark + 1 ≤ grown.states.length := by rwa [mark', regrown.states]
  have room' : grown.pendingIds.length < grown.pendingCapacity := by rwa [regrown.pendingIds]
  obtain ⟨known, fresh, -, -⟩ := kept'.sound.past slot
  obtain ⟨generation, read, is⟩ := kept'.sound.generation_run known
  obtain rfl := Option.some.inj (is.symm.trans fresh)
  rw [← mark', Call.bind_ok run, Call.bind_ok (state_run known), Call.bind_ok read, Call.rejectIf_bind_neg (by simp)]
  have pushed := @pushPending_run { grown with
    generations := grown.generations.set grown.highWaterMark 1
    states := grown.states.set grown.highWaterMark .pendingAdd, highWaterMark := grown.highWaterMark + 1 }
    (grown.highWaterMark + 1) room'
  refine Or.inr ⟨grown.highWaterMark + 1, _, ?_, (kept.trans kept').reserved (fresh_reserved kept'.sound 1 slot
    (mark' ▸ small) room')⟩
  exact (Call.bind_ok pushed : (pushPending (grown.highWaterMark + 1) >>= fun _ =>
    pure (grown.highWaterMark + 1)) _ = _)

theorem reserve_spec (memory : Memory) (h : self.Sound) :
    (∃ e after, reserve memory self = .err e after ∧ Kept self after) ∨
      ∃ id after, reserve memory self = .ok id after ∧ Reserved self after id := by
  unfold reserve
  rw [Call.get_bind]
  rcases reservePooled_spec memory h rfl with ⟨e, after, run, kept⟩ | ⟨after, run, kept⟩ | ⟨id, after, run, reserved⟩
  · exact Or.inl ⟨e, after, Call.bind_err run, kept⟩
  · rw [Call.bind_ok run]
    rcases reserveFresh_spec memory kept.sound with ⟨e, last, run', kept'⟩ | ⟨id, last, run', reserved⟩
    · exact Or.inl ⟨e, last, run', kept.trans kept'⟩
    · exact Or.inr ⟨id, last, run', kept.reserved reserved⟩
  · rw [Call.bind_ok run]
    exact Or.inr ⟨id, after, rfl, reserved⟩

/-! ### Handles -/

/-- A handle of the current generation. -/
structure Current (allocator : WorldIdAllocator) (id generation : JavaInt) (state : IdState) : Prop where
  positive : ¬ id.toInt ≤ 0
  inside : ¬ (allocator.highWaterMark : Int) < id.toInt
  known : allocator.look id.toNat = some state
  used : state ≠ .unused
  isCurrent : allocator.generations[id.toNat - 1]? = some generation

section Handles

variable {handle generation : JavaInt} {state : IdState}

theorem Current.run (h : Current self handle generation state) :
    requireCurrentGeneration handle generation self = .ok handle.toNat self := by
  unfold requireCurrentGeneration requireKnownId
  rw [Call.bind_bind, Call.get_bind, Call.bind_bind, Call.rejectIf_bind_neg (not_or.mpr ⟨h.positive, h.inside⟩),
    Call.bind_bind, Call.bind_ok (state_run h.known), Call.bind_bind, Call.rejectIf_bind_neg h.used, Call.pure_bind']
  have read : generationAt handle.toNat self = .ok generation self := by
    unfold generationAt
    rw [Call.get_bind, h.isCurrent]
    rfl
  rw [Call.bind_ok read, Call.rejectIf_bind_neg (by simp)]
  rfl

theorem SoundUpTo.known {committed : Nat} (h : SoundUpTo committed self) (pos : 0 < id)
    (inside : id ≤ self.highWaterMark) : ∃ state, self.look id = some state ∧ state ≠ .unused := by
  have each := h.each id pos
  cases look : self.look id with
  | none =>
    rw [look] at each
    exact absurd each.1 (by omega)
  | some state =>
    refine ⟨state, rfl, ?_⟩
    rintro rfl
    rw [look] at each
    exact absurd each.1 (by omega)

theorem requireCurrentGeneration_spec (h : self.Sound) (handle generation : JavaInt) :
    (∃ e, requireCurrentGeneration handle generation self = .err e self) ∨ ∃ state, Current self handle generation state := by
  by_cases outside : handle.toInt ≤ 0 ∨ (self.highWaterMark : Int) < handle.toInt
  · refine Or.inl ⟨.illegalState, Call.bind_err ?_⟩
    unfold requireKnownId
    rw [Call.get_bind, Call.rejectIf_bind_pos outside]
  · obtain ⟨positive, inside⟩ := not_or.mp outside
    have signed := BitVec.toInt_eq_toNat_cond handle
    have natural : handle.toInt = handle.toNat := by
      have := h.bound
      unfold maxId at this
      split at signed <;> omega
    obtain ⟨state, known, used⟩ := @SoundUpTo.known _ handle.toNat _ h (by omega) (by omega)
    obtain ⟨current, read, is⟩ := h.generation_run known
    by_cases same : current = generation
    · exact Or.inr ⟨state, positive, inside, known, used, same ▸ is⟩
    · refine Or.inl ⟨.illegalState, ?_⟩
      unfold requireCurrentGeneration requireKnownId
      rw [Call.bind_bind, Call.get_bind, Call.bind_bind, Call.rejectIf_bind_neg outside,
        Call.bind_bind, Call.bind_ok (state_run known), Call.bind_bind, Call.rejectIf_bind_neg used, Call.pure_bind',
        Call.bind_ok read, Call.rejectIf_bind_pos same]

/-- A usable handle is one of a live id. -/
theorem requireUsable_spec (h : self.Sound) (handle generation : JavaInt) :
    (∃ e, requireUsable handle generation self = .err e self) ∨
      requireUsable handle generation self = .ok () self ∧ self.currentPool.live handle.toNat := by
  unfold requireUsable
  rcases requireCurrentGeneration_spec h handle generation with ⟨e, run⟩ | ⟨state, current⟩
  · exact Or.inl ⟨e, Call.bind_err run⟩
  · rw [Call.bind_ok current.run, Call.bind_ok (state_run current.known)]
    by_cases dead : state ≠ .live ∧ state ≠ .pendingAdd
    · exact Or.inl ⟨.illegalState, by rw [Call.rejectIf, if_pos dead]⟩
    · refine Or.inr ⟨by rw [Call.rejectIf, if_neg dead], ?_⟩
      rw [not_and_or, not_not, not_not] at dead
      rcases dead with rfl | rfl
      · exact Or.inl current.known
      · exact Or.inr current.known

/-! ### Removing -/

/-- An id is removed from the current pool, and can be given back. -/
structure Removed (before after : WorldIdAllocator) (handle generation : JavaInt) : Prop where
  sound : after.Sound
  committed : IdPool.Same before.committedPool after.committedPool
  accepts : before.currentPool.Accepts maxId (.remove handle.toNat)
  current : IdPool.Same (before.currentPool.apply (.remove handle.toNat)) after.currentPool
  back : Current after handle generation .pendingRemove ∧ after.pendingIds.head? = some handle.toNat ∨
    Current after handle generation .pendingAddRemove

theorem remove_live (h : self.Sound) (current : Current self handle generation .live)
    (room : self.pendingIds.length < self.pendingCapacity) :
    Removed self { self with
      states := self.states.set (handle.toNat - 1) .pendingRemove, pendingIds := handle.toNat :: self.pendingIds }
      handle generation := by
  have pos := look_pos current.known
  have each := h.each _ pos
  rw [current.known] at each
  obtain ⟨low, notFree, notPending⟩ := each
  have edits : Edits self { self with
      states := self.states.set (handle.toNat - 1) .pendingRemove, pendingIds := handle.toNat :: self.pendingIds }
      handle.toNat .pendingRemove := by
    refine ⟨rfl, Or.inl rfl, fun _ _ => Iff.rfl, fun other different => ?_, h.freeNodup,
      List.nodup_cons.mpr ⟨notPending, h.pendingNodup⟩, h.freeRoom, rfl, room⟩
    rw [List.mem_cons]
    exact ⟨fun member => member.resolve_left different, Or.inr⟩
  have here := edits.look current.known handle.toNat
  rw [if_pos rfl] at here
  refine ⟨edits.sound h current.known rfl ⟨low, notFree, List.mem_cons_self⟩, ⟨rfl, fun other => ?_⟩,
    Or.inl current.known, ⟨rfl, fun other => ?_⟩,
    Or.inl ⟨⟨current.positive, current.inside, here, nofun, current.isCurrent⟩, rfl⟩⟩
  · refine (edits.live current.known other).trans ?_
    split
    · rename_i same
      rw [same]
      simp [committedPool, current.known]
    · rfl
  · refine (edits.live current.known other).trans ?_
    simp only [IdPool.apply, currentPool]
    split
    · rename_i same
      simp [same]
    · rename_i different
      simp [different]

theorem remove_pendingAdd (h : self.Sound) (current : Current self handle generation .pendingAdd) :
    Removed self { self with states := self.states.set (handle.toNat - 1) .pendingAddRemove } handle generation := by
  have pos := look_pos current.known
  have each := h.each _ pos
  rw [current.known] at each
  have edits : Edits self { self with states := self.states.set (handle.toNat - 1) .pendingAddRemove }
      handle.toNat .pendingAddRemove :=
    ⟨rfl, Or.inl rfl, fun _ _ => Iff.rfl, fun _ _ => Iff.rfl, h.freeNodup, h.pendingNodup, h.freeRoom, rfl, h.pendingRoom⟩
  have here := edits.look current.known handle.toNat
  rw [if_pos rfl] at here
  refine ⟨edits.sound h current.known rfl each, ⟨rfl, fun other => ?_⟩, Or.inr current.known,
    ⟨rfl, fun other => ?_⟩, Or.inr ⟨current.positive, current.inside, here, nofun, current.isCurrent⟩⟩
  · refine (edits.live current.known other).trans ?_
    split
    · rename_i same
      rw [same]
      simp [committedPool, current.known]
    · rfl
  · refine (edits.live current.known other).trans ?_
    simp only [IdPool.apply, currentPool]
    split
    · rename_i same
      simp [same]
    · rename_i different
      simp [different]

theorem Regrown.current {after : WorldIdAllocator} (h : Regrown self after)
    (current : Current self handle generation state) : Current after handle generation state :=
  ⟨current.positive, by rw [h.highWaterMark]; exact current.inside, by rw [look_congr h.states]; exact current.known,
    current.used, by rw [h.generations]; exact current.isCurrent⟩

theorem Kept.removed {third : WorldIdAllocator} (h : Kept self after) (h' : Removed after third handle generation) :
    Removed self third handle generation :=
  ⟨h'.sound, h.committed.trans h'.committed, h.current.accepts.mp h'.accepts, (h.current.apply _).trans h'.current,
    h'.back⟩

theorem remove_spec (memory : Memory) (h : self.Sound) (handle generation : JavaInt) :
    (∃ e, remove memory handle generation self = .err e self) ∨
      ∃ after, remove memory handle generation self = .ok () after ∧ Removed self after handle generation := by
  unfold remove
  rcases requireCurrentGeneration_spec h handle generation with ⟨e, run⟩ | ⟨state, current⟩
  · exact Or.inl ⟨e, Call.bind_err run⟩
  rw [Call.bind_ok current.run, Call.bind_ok (state_run current.known)]
  cases state with
  | live =>
    rcases ensurePendingCapacity_spec self memory 1 with ⟨e, run⟩ | ⟨grown, run, regrown, room⟩
    · exact Or.inl ⟨e, Call.bind_err run⟩
    · have room' : grown.pendingIds.length < grown.pendingCapacity := by rwa [regrown.pendingIds]
      have pushed := @pushPending_run { grown with states := grown.states.set (handle.toNat - 1) .pendingRemove }
        handle.toNat room'
      have kept := regrown.kept h
      exact Or.inr ⟨_, (Call.bind_ok run).trans pushed,
        kept.removed (remove_live kept.sound (regrown.current current) room')⟩
  | pendingAdd => exact Or.inr ⟨_, rfl, remove_pendingAdd h current⟩
  | unused | free | pendingRemove | pendingAddRemove | retired => exact Or.inl ⟨_, rfl⟩

end Handles

/-! ### Cancelling -/

/-- The handle of an id. -/
def handleOf (id : Nat) : JavaInt := BitVec.ofNat 32 id

theorem toNat_handleOf {id : Nat} (small : id ≤ maxId) : (handleOf id).toNat = id := by
  unfold maxId at small
  rw [handleOf, BitVec.toNat_ofNat, Nat.mod_eq_of_lt (by omega)]

theorem toInt_handleOf {id : Nat} (small : id ≤ maxId) : (handleOf id).toInt = id := by
  have natural := toNat_handleOf small
  have signed := BitVec.toInt_eq_toNat_cond (handleOf id)
  rw [natural] at signed
  unfold maxId at small
  rw [if_pos (by omega)] at signed
  exact signed

/-- A reserved id has a generation, and a handle of it. -/
theorem Reserved.handle (h : Reserved self after id) : ∃ g, WorldIdAllocator.generation (handleOf id) after = .ok g after ∧
    Current after (handleOf id) g .pendingAdd := by
  have small : id ≤ maxId := h.accepts.2.1
  have pos : 0 < id := h.accepts.1
  have inside : id ≤ after.highWaterMark := by
    have each := h.sound.each id pos
    rw [h.pending] at each
    exact each.1
  obtain ⟨g, read, is⟩ := h.sound.generation_run h.pending
  have natural := toNat_handleOf small
  have whole := toInt_handleOf small
  have current : Current after (handleOf id) g .pendingAdd :=
    ⟨by omega, by omega, by rw [natural]; exact h.pending, nofun, by rw [natural]; exact is⟩
  refine ⟨g, ?_, current⟩
  unfold WorldIdAllocator.generation requireKnownId
  rw [Call.bind_bind, Call.get_bind, Call.bind_bind,
    Call.rejectIf_bind_neg (not_or.mpr ⟨current.positive, current.inside⟩), Call.bind_bind,
    Call.bind_ok (state_run current.known), Call.bind_bind, Call.rejectIf_bind_neg current.used, Call.pure_bind', natural]
  exact read

theorem Fits.lower {state : Option IdState} {committed mark other : Nat} {free pending fresh : Prop}
    (h : Fits state committed (mark + 1) other free pending fresh) (different : other ≠ mark + 1) :
    Fits state committed mark other free pending fresh := by
  unfold Fits at h ⊢
  split at h
  · exact ⟨by omega, h.2⟩
  · exact ⟨by omega, h.2⟩
  · exact h
  · exact h
  · exact ⟨by omega, h.2⟩
  · exact h
  · exact ⟨by omega, h.2⟩
  · exact h

theorem popPending_run (last : self.pendingIds.head? = some id) : popPending id self = .ok () self := by
  unfold popPending
  rw [Call.get_bind, Call.rejectIf, if_neg (by rw [last]; simp)]

theorem cons_of_head? (last : self.pendingIds.head? = some id) : self.pendingIds = id :: self.pendingIds.tail := by
  cases ids : self.pendingIds with
  | nil =>
    rw [ids] at last
    exact absurd last nofun
  | cons head tail =>
    rw [ids] at last
    rw [Option.some.inj last]
    rfl

/-- The most recent pending id leaves the stack. -/
theorem SoundUpTo.popped {committed : Nat} (h : SoundUpTo committed self) (last : self.pendingIds.head? = some id) :
    (∀ other, other ≠ id → (other ∈ self.pendingIds.tail ↔ other ∈ self.pendingIds)) ∧
      id ∉ self.pendingIds.tail ∧ self.pendingIds.tail.Nodup ∧ self.pendingIds.tail.length ≤ self.pendingCapacity := by
  have shape := cons_of_head? last
  have nodup := h.pendingNodup
  have room := h.pendingRoom
  rw [shape, List.nodup_cons] at nodup
  rw [shape, List.length_cons] at room
  refine ⟨fun other different => ?_, nodup.1, nodup.2, by omega⟩
  rw [shape, List.mem_cons, List.tail_cons]
  exact ⟨Or.inr, fun member => member.resolve_left different⟩

/-- A fresh id is given back. -/
theorem cancel_fresh (h : Reserved self after id) (high : after.committedHighWaterMark < id) :
    Kept self { after with
      pendingIds := after.pendingIds.tail, states := after.states.set (id - 1) .unused
      generations := after.generations.set (id - 1) 0, highWaterMark := after.highWaterMark - 1 } := by
  obtain ⟨mark, was⟩ := h.fresh high
  obtain ⟨others, gone, nodup, room⟩ := h.sound.popped h.last
  have pos := look_pos h.pending
  have each := h.sound.each id pos
  rw [h.pending] at each
  have edits : Edits after { after with
      pendingIds := after.pendingIds.tail, states := after.states.set (id - 1) .unused
      generations := after.generations.set (id - 1) 0, highWaterMark := after.highWaterMark - 1 } id .unused :=
    ⟨rfl, Or.inr ⟨0, rfl⟩, fun _ _ => Iff.rfl, others, h.sound.freeNodup, nodup, h.sound.freeRoom, rfl, room⟩
  have fits := h.sound.fits
  have bound := h.sound.bound
  have inside := look_lt h.pending
  refine ⟨⟨edits.sizes h.sound, ?_, ?_, ?_, h.sound.freeNodup, nodup, h.sound.freePos, fun other member =>
    h.sound.pendingPos other (List.mem_of_mem_tail member), h.sound.freeRoom, h.sound.freeLimit, room,
    fun other pos' => ?_⟩, ⟨h.committed.slots, fun other => ?_⟩, ?_, fun other => ?_⟩
  · simp only [List.length_set]
    omega
  · dsimp only
    omega
  · dsimp only
    omega
  · rw [edits.look h.pending]
    by_cases same : other = id
    · subst same
      rw [if_pos rfl]
      refine ⟨by dsimp only; omega, each.2.1, gone, ?_⟩
      unfold freshGeneration
      dsimp only
      rw [List.getElem?_set, if_pos rfl, if_pos (h.sound.sizes ▸ inside)]
    · rw [if_neg same, edits.fresh pos pos' same, edits.pendingIds other same]
      have old := h.sound.each other pos'
      dsimp only
      rw [show after.highWaterMark = (after.highWaterMark - 1) + 1 by omega] at old
      exact old.lower (by omega)
  · refine (edits.live h.pending other).trans ?_
    split
    · rename_i same
      have before := h.committed.live other
      rw [← before, same]
      simp [committedPool, h.pending]
    · exact h.committed.live other
  · dsimp only [currentPool]
    omega
  · refine (edits.live h.pending other).trans ?_
    have before := h.current.live other
    have vacant := h.accepts.2.2.2
    simp only [IdPool.apply] at before
    split
    · rename_i same
      rw [same]
      simp only [reduceCtorEq, or_self, false_iff]
      exact vacant
    · rename_i different
      exact before.trans ⟨fun or => or.resolve_left different, Or.inr⟩

/-- A pooled id is given back. -/
theorem cancel_pooled (sound : self.Sound) (h : Reserved self after id) (low : id ≤ after.committedHighWaterMark) :
    Kept self { after with
      pendingIds := after.pendingIds.tail, states := after.states.set (id - 1) .free
      freeIds := id :: after.freeIds } := by
  obtain ⟨others, gone, nodup, room⟩ := h.sound.popped h.last
  have pos := look_pos h.pending
  have each := h.sound.each id pos
  rw [h.pending] at each
  have edits : Edits after { after with
      pendingIds := after.pendingIds.tail, states := after.states.set (id - 1) .free
      freeIds := id :: after.freeIds } id .free := by
    refine ⟨rfl, Or.inl rfl, fun other different => ?_, others, List.nodup_cons.mpr ⟨each.2.1, h.sound.freeNodup⟩,
      nodup, h.room low, rfl, room⟩
    rw [List.mem_cons]
    exact ⟨fun member => member.resolve_left different, Or.inr⟩
  refine ⟨edits.sound h.sound h.pending rfl ⟨low, List.mem_cons_self, gone⟩, ⟨h.committed.slots, fun other => ?_⟩, ?_,
    fun other => ?_⟩
  · refine (edits.live h.pending other).trans ?_
    split
    · rename_i same
      have before := h.committed.live other
      rw [← before, same]
      simp [committedPool, h.pending]
    · exact h.committed.live other
  · have same : after.committedHighWaterMark = self.committedHighWaterMark := h.committed.slots
    have mark : after.highWaterMark = max self.highWaterMark id := h.current.slots
    have within : self.committedHighWaterMark ≤ self.highWaterMark := sound.within
    dsimp only [currentPool]
    omega
  · refine (edits.live h.pending other).trans ?_
    have before := h.current.live other
    have vacant := h.accepts.2.2.2
    simp only [IdPool.apply] at before
    split
    · rename_i same
      rw [same]
      simp only [reduceCtorEq, or_self, false_iff]
      exact vacant
    · rename_i different
      exact before.trans ⟨fun or => or.resolve_left different, Or.inr⟩

/-- What was just reserved can be cancelled, and leaves no trace. -/
theorem cancelPendingAdd_spec (sound : self.Sound) (h : Reserved self after id) (memory : Memory) {g : JavaInt}
    (current : Current after (handleOf id) g .pendingAdd) :
    ∃ last, cancelPendingAdd memory (handleOf id) g after = .ok () last ∧ Kept self last := by
  have natural := toNat_handleOf h.accepts.2.1
  have run := current.run
  rw [natural] at run
  unfold cancelPendingAdd
  rw [Call.bind_ok run, Call.bind_ok (state_run h.pending), Call.rejectIf_bind_neg (by simp),
    Call.bind_ok (popPending_run h.last), Call.get_bind]
  by_cases high : after.committedHighWaterMark < id
  · rw [if_pos high, Call.rejectIf_bind_neg (not_not.mpr (h.fresh high).1)]
    exact ⟨_, rfl, cancel_fresh h high⟩
  · rw [if_neg high]
    have low : id ≤ after.committedHighWaterMark := Nat.le_of_not_lt high
    have room := h.room low
    have limit := h.sound.freeLimit
    have enough : ensureFreeCapacity memory 1 after = .ok () after := by
      unfold ensureFreeCapacity requiredCapacity
      rw [Call.get_bind, Call.bind_bind, Call.rejectIf_bind_neg (by omega), Call.pure_bind', if_pos (Nat.succ_le_of_lt room)]
      rfl
    have pushed := @pushFree_run { after with
      pendingIds := after.pendingIds.tail, states := after.states.set (id - 1) .free } id room
    exact ⟨_, (Call.bind_ok enough).trans pushed, cancel_pooled sound h low⟩

section Removal

variable {handle generation : JavaInt}

/-- What was just removed can be given back. -/
theorem cancelPendingRemove_spec (h : Removed self after handle generation) :
    ∃ last, cancelPendingRemove handle generation after = .ok () last ∧ Kept self last := by
  unfold cancelPendingRemove
  have restored : ∀ (last : WorldIdAllocator) (state : IdState), Edits after last handle.toNat state →
      (∃ s, after.look handle.toNat = some s) → (state = .live ∨ state = .pendingAdd) →
      last.highWaterMark = after.highWaterMark → IdPool.Same self.currentPool last.currentPool := by
    rintro last state edits ⟨s, known⟩ lives mark
    refine ⟨mark.trans h.current.slots, fun other => ?_⟩
    refine (edits.live known other).trans ?_
    have before := h.current.live other
    have was := h.accepts
    simp only [IdPool.apply] at before
    split
    · rename_i same
      rw [same]
      exact ⟨fun _ => was, fun _ => lives⟩
    · rename_i different
      exact before.trans ⟨fun both => both.2, fun live => ⟨different, live⟩⟩
  rcases h.back with ⟨current, last⟩ | current
  · obtain ⟨others, gone, nodup, room⟩ := h.sound.popped last
    have each := h.sound.each _ (look_pos current.known)
    rw [current.known] at each
    have edits : Edits after { after with
        pendingIds := after.pendingIds.tail, states := after.states.set (handle.toNat - 1) .live } handle.toNat .live :=
      ⟨rfl, Or.inl rfl, fun _ _ => Iff.rfl, others, h.sound.freeNodup, nodup, h.sound.freeRoom, rfl, room⟩
    rw [Call.bind_ok current.run, Call.bind_ok (state_run current.known)]
    refine ⟨_, Call.bind_ok (popPending_run last), edits.sound h.sound current.known rfl ⟨each.1, each.2.1, gone⟩,
      ⟨h.committed.slots, fun other => ?_⟩, restored _ _ edits ⟨_, current.known⟩ (Or.inl rfl) rfl⟩
    refine (edits.live current.known other).trans ?_
    split
    · rename_i same
      have before := h.committed.live other
      rw [← before, same]
      simp [committedPool, current.known]
    · exact h.committed.live other
  · have each := h.sound.each _ (look_pos current.known)
    rw [current.known] at each
    have edits : Edits after { after with states := after.states.set (handle.toNat - 1) .pendingAdd }
        handle.toNat .pendingAdd :=
      ⟨rfl, Or.inl rfl, fun _ _ => Iff.rfl, fun _ _ => Iff.rfl, h.sound.freeNodup, h.sound.pendingNodup,
        h.sound.freeRoom, rfl, h.sound.pendingRoom⟩
    rw [Call.bind_ok current.run, Call.bind_ok (state_run current.known)]
    refine ⟨_, rfl, edits.sound h.sound current.known rfl each, ⟨h.committed.slots, fun other => ?_⟩,
      restored _ _ edits ⟨_, current.known⟩ (Or.inr rfl) rfl⟩
    refine (edits.live current.known other).trans ?_
    split
    · rename_i same
      have before := h.committed.live other
      rw [← before, same]
      simp [committedPool, current.known]
    · exact h.committed.live other

end Removal

/-! ### Committing -/

/-- A pending id that goes back to the pool. -/
def IsReleased (self : WorldIdAllocator) (id : Nat) : Prop :=
  (self.look id = some .pendingRemove ∨ self.look id = some .pendingAddRemove) ∧ self.generations[id - 1]? ≠ some (-1)

instance (self : WorldIdAllocator) (id : Nat) : Decidable (IsReleased self id) := by
  unfold IsReleased
  infer_instance

def releases (self : WorldIdAllocator) (ids : List Nat) : Nat := ids.countP fun id => decide (IsReleased self id)

theorem SoundUpTo.pendingState {committed : Nat} (h : SoundUpTo committed self) (member : id ∈ self.pendingIds) :
    ∃ state, self.look id = some state ∧
      (state = .pendingAdd ∨ state = .pendingRemove ∨ state = .pendingAddRemove) := by
  have each := h.each id (h.pendingPos id member)
  cases look : self.look id with
  | none =>
    rw [look] at each
    exact absurd member each.2.2
  | some state =>
    rw [look] at each
    refine ⟨state, rfl, ?_⟩
    cases state with
    | pendingAdd => exact Or.inl rfl
    | pendingRemove => exact Or.inr (Or.inl rfl)
    | pendingAddRemove => exact Or.inr (Or.inr rfl)
    | unused => exact absurd member each.2.2.1
    | free | live | retired => exact absurd member each.2.2

theorem validate_run {committed : Nat} (h : SoundUpTo committed self) (ids : List Nat)
    (pending : ∀ id ∈ ids, id ∈ self.pendingIds) :
    validatePendingAndCountReusableReleases ids self = .ok (releases self ids) self := by
  induction ids with
  | nil => rfl
  | cons id ids ih =>
    obtain ⟨state, known, cases'⟩ := h.pendingState (pending id List.mem_cons_self)
    obtain ⟨generation, read, is⟩ := h.generation_run known
    have rest := ih fun other member => pending other (List.mem_cons_of_mem _ member)
    rw [validatePendingAndCountReusableReleases, Call.bind_ok (state_run known)]
    unfold releases at rest ⊢
    rw [List.countP_cons]
    have counted : ∀ released : Prop, (IsReleased self id ↔ released) → ∀ [Decidable released],
        (if decide (IsReleased self id) = true then 1 else 0) = if released then 1 else 0 := by
      intro released iff _
      by_cases yes : released
      · rw [if_pos yes, if_pos (decide_eq_true (iff.mpr yes))]
      · rw [if_neg yes, if_neg (by simpa using fun other => yes (iff.mp other))]
    rcases cases' with rfl | rfl | rfl
    · dsimp only
      rw [rest, counted False (by simp [IsReleased, known])]
      rfl
    · dsimp only
      rw [Call.bind_ok read, Call.bind_ok rest, counted (generation ≠ -1) (by simp [IsReleased, known, is])]
      split <;> rfl
    · dsimp only
      rw [Call.bind_ok read, Call.bind_ok rest, counted (generation ≠ -1) (by simp [IsReleased, known, is])]
      split <;> rfl

/-- There is room for what a commit releases. -/
def Prepared (self : WorldIdAllocator) : Prop :=
  self.freeIds.length + releases self self.pendingIds.reverse ≤ self.freeCapacity

theorem releases_congr {ids : List Nat} (looks : ∀ id ∈ ids, after.look id = self.look id)
    (generations : after.generations = self.generations) : releases after ids = releases self ids := by
  unfold releases
  apply List.countP_congr
  intro id member
  rw [decide_eq_true_iff, decide_eq_true_iff, IsReleased, IsReleased, looks id member, generations]

theorem prepareCommitBatch_spec (h : self.Sound) (memory : Memory) :
    (∃ e, prepareCommitBatch memory self = .err e self) ∨
      ∃ after, prepareCommitBatch memory self = .ok () after ∧ Kept self after ∧ Prepared after ∧
        after.pendingIds = self.pendingIds := by
  have counted := validate_run h self.pendingIds.reverse fun id member => List.mem_reverse.mp member
  unfold prepareCommitBatch
  rw [Call.get_bind, Call.bind_ok counted]
  rcases ensureFreeCapacity_spec self memory (releases self self.pendingIds.reverse) with
    ⟨e, run⟩ | ⟨after, run, regrown, room⟩
  · exact Or.inl ⟨e, run⟩
  · refine Or.inr ⟨after, run, regrown.kept h, ?_, regrown.pendingIds⟩
    have same : releases after after.pendingIds.reverse = releases self self.pendingIds.reverse := by
      rw [regrown.pendingIds]
      exact releases_congr (fun id _ => congrFun (look_congr regrown.states) id) regrown.generations
    rw [Prepared, same, regrown.freeIds]
    exact room

/-- The state in the loop of a commit: what is left of the batch is pending, and every id may be live. -/
def Committing (self : WorldIdAllocator) (ids : List Nat) : Prop :=
  SoundUpTo self.highWaterMark { self with pendingIds := ids }

/-- One id of the batch is settled. -/
theorem settle {ids : List Nat} {state next : IdState} (h : Committing self (id :: ids))
    (known : self.look id = some state) (states : after.states = self.states.set (id - 1) next)
    (generations : after.generations = self.generations) (capacity : after.freeCapacity = self.freeCapacity)
    (pendingCapacity : after.pendingCapacity = self.pendingCapacity) (mark : after.highWaterMark = self.highWaterMark)
    (free : after.freeIds = self.freeIds ∧ (next = .live ∨ next = .retired) ∨
      after.freeIds = id :: self.freeIds ∧ next = .free ∧ self.freeIds.length < self.freeCapacity)
    (same : next = .live ↔ state = .live ∨ state = .pendingAdd) :
    Committing after ids ∧ IdPool.Same self.currentPool after.currentPool ∧
      ∀ other, other ≠ id → after.look other = self.look other := by
  have nodup := h.pendingNodup
  rw [List.nodup_cons] at nodup
  have room := h.pendingRoom
  have known' : ({ self with pendingIds := id :: ids } : WorldIdAllocator).look id = some state := known
  have each := h.each id (look_pos known)
  have member : id ∈ ({ self with pendingIds := id :: ids } : WorldIdAllocator).pendingIds := List.mem_cons_self
  have unfree : id ∉ self.freeIds ∧ id ≤ self.highWaterMark := by
    rw [known'] at each
    have within := h.within
    cases state with
    | pendingAdd | pendingRemove | pendingAddRemove => exact ⟨each.2.1, each.1⟩
    | unused => exact absurd member each.2.2.1
    | free | live | retired => exact absurd member each.2.2
  have edits : Edits { self with pendingIds := id :: ids } { after with pendingIds := ids } id next := by
    refine ⟨states, Or.inl generations, fun other different => ?_, fun other different => ?_, ?_, nodup.2, ?_, capacity, ?_⟩
    · rcases free with ⟨same', -⟩ | ⟨pushed, -, -⟩
      · simp only [same']
      · simp only [pushed, List.mem_cons]
        exact ⟨fun or => or.resolve_left different, Or.inr⟩
    · simp only [List.mem_cons]
      exact ⟨Or.inr, fun or => or.resolve_left different⟩
    · rcases free with ⟨same', -⟩ | ⟨pushed, -, -⟩
      · simp only [same']
        exact h.freeNodup
      · simp only [pushed]
        exact List.nodup_cons.mpr ⟨unfree.1, h.freeNodup⟩
    · rcases free with ⟨same', -⟩ | ⟨pushed, -, less⟩
      · simp only [same', capacity]
        exact h.freeRoom
      · simp only [pushed, capacity, List.length_cons]
        exact less
    · simp only [pendingCapacity]
      exact Nat.le_of_succ_le room
  have looks : ∀ other, after.look other = if other = id then some next else self.look other := fun other =>
    edits.look known' other
  refine ⟨?_, ⟨mark, fun other => ?_⟩, fun other different => ?_⟩
  · have sound : SoundUpTo self.highWaterMark { after with pendingIds := ids } := edits.sound h known' mark ?_
    · rwa [← mark] at sound
    rcases free with ⟨same', rfl | rfl⟩ | ⟨pushed, rfl, -⟩
    · exact ⟨unfree.2, same' ▸ unfree.1, nodup.1⟩
    · exact ⟨unfree.2, same' ▸ unfree.1, nodup.1⟩
    · exact ⟨unfree.2, pushed ▸ List.mem_cons_self, nodup.1⟩
  · refine (edits.live known' other).trans ?_
    split
    · rename_i here
      rw [here]
      simp only [currentPool, known, Option.some.injEq]
      rw [← same]
      rcases free with ⟨-, rfl | rfl⟩ | ⟨-, rfl, -⟩ <;> simp
    · rfl
  · rw [looks, if_neg different]

theorem commitPending_spec (ids : List Nat) (h : Committing self ids)
    (room : self.freeIds.length + releases self ids ≤ self.freeCapacity) :
    ∃ after, commitPending ids self = .ok () after ∧ Committing after [] ∧
      IdPool.Same self.currentPool after.currentPool := by
  induction ids generalizing self with
  | nil => exact ⟨self, rfl, h, .refl _⟩
  | cons id ids ih =>
    have member : id ∈ ({ self with pendingIds := id :: ids } : WorldIdAllocator).pendingIds := List.mem_cons_self
    obtain ⟨state, known, cases'⟩ := h.pendingState member
    have known : self.look id = some state := known
    obtain ⟨generation, -, is⟩ := h.generation_run known
    have is : self.generations[id - 1]? = some generation := is
    have read : generationAt id self = .ok generation self := by
      unfold generationAt
      rw [Call.get_bind, is]
      rfl
    have nodup := h.pendingNodup
    rw [List.nodup_cons] at nodup
    have others : ∀ other ∈ ids, other ≠ id := fun other member' same => nodup.1 (same ▸ member')
    unfold releases at room
    rw [List.countP_cons] at room
    rw [commitPending, Call.bind_ok (state_run known)]
    -- what is left to do after `id` is settled
    have finish : ∀ (next : WorldIdAllocator), Committing next ids → IdPool.Same self.currentPool next.currentPool →
        next.freeIds.length + releases next ids ≤ next.freeCapacity →
        ∃ after, commitPending ids next = .ok () after ∧ Committing after [] ∧
          IdPool.Same self.currentPool after.currentPool := by
      intro next committing same room'
      obtain ⟨after, run, done, same'⟩ := ih committing room'
      exact ⟨after, run, done, same.trans same'⟩
    have removed : (state = .pendingRemove ∨ state = .pendingAddRemove) →
        ∃ after, (releaseCommitted id >>= fun _ => commitPending ids) self = .ok () after ∧ Committing after [] ∧
          IdPool.Same self.currentPool after.currentPool := by
      intro removal
      unfold releaseCommitted
      rw [Call.bind_bind, Call.bind_ok read]
      by_cases spent : generation = -1
      · rw [if_pos spent]
        obtain ⟨committing, same, looks⟩ := @settle _ { self with states := self.states.set (id - 1) .retired } _ _ _ _
          h known rfl rfl rfl rfl rfl (Or.inl ⟨rfl, Or.inr rfl⟩) (by rcases removal with rfl | rfl <;> simp)
        refine finish _ committing same ?_
        rw [releases_congr (fun other member' => looks other (others other member')) rfl]
        exact le_trans (by unfold releases; dsimp only; omega) room
      · rw [if_neg spent]
        have released : decide (IsReleased self id) = true := by
          rw [decide_eq_true_iff]
          refine ⟨?_, by rw [is]; simpa using spent⟩
          rcases removal with rfl | rfl
          · exact Or.inl known
          · exact Or.inr known
        rw [if_pos released] at room
        have less : self.freeIds.length < self.freeCapacity := by omega
        have pushed := @pushFree_run { self with states := self.states.set (id - 1) .free } id less
        obtain ⟨committing, same, looks⟩ := @settle _ { self with
          states := self.states.set (id - 1) .free, freeIds := id :: self.freeIds } _ _ _ _
          h known rfl rfl rfl rfl rfl (Or.inr ⟨rfl, rfl, less⟩) (by rcases removal with rfl | rfl <;> simp)
        have run : (do setState id .free; pushFree id : Java Unit) self = _ := pushed
        rw [Call.bind_ok run]
        refine finish _ committing same ?_
        rw [releases_congr (fun other member' => looks other (others other member')) rfl]
        unfold releases
        simp only [List.length_cons]
        omega
    rcases cases' with rfl | rfl | rfl
    · obtain ⟨committing, same, looks⟩ := @settle _ { self with states := self.states.set (id - 1) .live } _ _ _ _
        h known rfl rfl rfl rfl rfl (Or.inl ⟨rfl, Or.inl rfl⟩) (by simp)
      refine finish _ committing same ?_
      rw [releases_congr (fun other member' => looks other (others other member')) rfl]
      exact le_trans (by unfold releases; dsimp only; omega) room
    · exact removed (Or.inl rfl)
    · exact removed (Or.inr rfl)

theorem SoundUpTo.raised {committed : Nat} (h : SoundUpTo committed self) : SoundUpTo self.highWaterMark self := by
  refine ⟨h.sizes, h.fits, h.bound, le_refl _, h.freeNodup, h.pendingNodup, h.freePos, h.pendingPos, h.freeRoom,
    h.freeLimit, h.pendingRoom, fun id pos => ?_⟩
  have each := h.each id pos
  have within := h.within
  unfold Fits at each ⊢
  split at each
  · exact each
  · exact each
  · exact ⟨by omega, each.2⟩
  · exact ⟨by omega, each.2⟩
  · exact each
  · exact ⟨by omega, each.2⟩
  · exact each
  · exact ⟨by omega, each.2⟩

/-- A prepared batch is committed: the current pool is the committed one, and nothing is pending. -/
theorem commitBatch_spec (h : self.Sound) (prepared : Prepared self) :
    ∃ after, commitBatch self = .ok () after ∧ after.Sound ∧ IdPool.Same self.currentPool after.committedPool ∧
      IdPool.Same self.currentPool after.currentPool ∧ after.pendingIds = [] := by
  have start : Committing self self.pendingIds.reverse := by
    have raised := h.raised
    refine ⟨raised.sizes, raised.fits, raised.bound, raised.within, raised.freeNodup,
      (List.reverse_perm _).nodup_iff.mpr raised.pendingNodup, raised.freePos,
      fun id member => raised.pendingPos id (List.mem_reverse.mp member), raised.freeRoom, raised.freeLimit, ?_,
      fun id pos => ?_⟩
    · simp only [List.length_reverse]
      exact raised.pendingRoom
    · simp only [List.mem_reverse]
      exact raised.each id pos
  obtain ⟨last, run, done, same⟩ := commitPending_spec self.pendingIds.reverse start prepared
  unfold commitBatch
  rw [Call.get_bind, Call.bind_ok run]
  have settled : ∀ id s, last.look id = some s → s = .pendingRemove ∨ s = .pendingAdd → False := by
    intro id s known pending
    have each := done.each id (look_pos known)
    rw [show ({ last with pendingIds := [] } : WorldIdAllocator).look id = last.look id from rfl, known] at each
    rcases pending with rfl | rfl
    · exact absurd each.2.2 List.not_mem_nil
    · exact absurd each.2.2 List.not_mem_nil
  have sound : Sound { last with pendingIds := [], committedHighWaterMark := last.highWaterMark } :=
    ⟨done.sizes, done.fits, done.bound, done.within, done.freeNodup, done.pendingNodup, done.freePos, done.pendingPos,
      done.freeRoom, done.freeLimit, done.pendingRoom, done.each⟩
  refine ⟨_, rfl, sound, ⟨same.slots, fun id => Iff.trans ?_ (same.live id)⟩, ⟨same.slots, same.live⟩, rfl⟩
  show last.look id = some .live ∨ last.look id = some .pendingRemove ↔
    last.look id = some .live ∨ last.look id = some .pendingAdd
  constructor
  · rintro (live | pending)
    · exact Or.inl live
    · exact (settled id _ pending (Or.inl rfl)).elim
  · rintro (live | pending)
    · exact Or.inl live
    · exact (settled id _ pending (Or.inr rfl)).elim

end WorldIdAllocator

end Hynergy
