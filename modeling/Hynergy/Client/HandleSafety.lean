import Hynergy.Client.IdViews

/-!
# Handles of ids

An id and a generation make a handle. What happened to each handle that was handed out is told by
the calls that returned; the slots of the allocator agree with it, and generations only rise.
-/

namespace Hynergy

namespace WorldIdAllocator

/-- What happened to a handle. A reservation at the end that was cancelled before any commit is withdrawn. -/
inductive HandleStatus where
  | unused | added | addedRemoved | live | removed | gone | withdrawn
  deriving DecidableEq

namespace HandleStatus

def remove : HandleStatus → HandleStatus
  | added => addedRemoved
  | live => removed
  | status => status

def restore : HandleStatus → HandleStatus
  | addedRemoved => added
  | removed => live
  | status => status

def commit : HandleStatus → HandleStatus
  | added => live
  | addedRemoved | removed => gone
  | status => status

end HandleStatus

/-- The handles by id and generation. -/
abbrev History := Nat → JavaInt → HandleStatus

def History.set (history : History) (id : Nat) (g : JavaInt) (status : HandleStatus) : History := fun other g' =>
  if other = id ∧ g' = g then status else history other g'

theorem History.set_self (history : History) (id : Nat) (g : JavaInt) (status : HandleStatus) :
    history.set id g status id g = status := if_pos ⟨rfl, rfl⟩

theorem History.set_ne {history : History} {id other : Nat} {g g' : JavaInt} {status : HandleStatus}
    (different : ¬ (other = id ∧ g' = g)) : history.set id g status other g' = history other g' := if_neg different

/-- One call, with what it does to the handles. -/
inductive Step : WorldIdAllocator × History → WorldIdAllocator × History → Prop
  | reserve {a b : WorldIdAllocator} {history : History} {memory : Memory} {id : Nat} {g : JavaInt}
      (run : reserve memory a = .ok id b) (is : generation (BitVec.ofNat 32 id) b = .ok g b) :
      Step (a, history) (b, history.set id g .added)
  | reserveThrows {a b : WorldIdAllocator} {history : History} {memory : Memory} {e : JavaException}
      (run : reserve memory a = .err e b) : Step (a, history) (b, history)
  | requireUsable {a b : WorldIdAllocator} {history : History} {id g : JavaInt}
      (left : (requireUsable id g a).Leaves b) : Step (a, history) (b, history)
  | remove {a b : WorldIdAllocator} {history : History} {memory : Memory} {id g : JavaInt}
      (run : remove memory id g a = .ok () b) :
      Step (a, history) (b, history.set id.toNat g (history id.toNat g).remove)
  | removeThrows {a b : WorldIdAllocator} {history : History} {memory : Memory} {id g : JavaInt} {e : JavaException}
      (run : remove memory id g a = .err e b) : Step (a, history) (b, history)
  | cancelPendingAdd {a b : WorldIdAllocator} {history : History} {memory : Memory} {id g : JavaInt}
      (run : cancelPendingAdd memory id g a = .ok () b) :
      Step (a, history) (b, history.set id.toNat g (if a.committedHighWaterMark < id.toNat then .withdrawn else .gone))
  | cancelPendingAddThrows {a b : WorldIdAllocator} {history : History} {memory : Memory} {id g : JavaInt}
      {e : JavaException} (run : cancelPendingAdd memory id g a = .err e b) : Step (a, history) (b, history)
  | cancelPendingRemove {a b : WorldIdAllocator} {history : History} {id g : JavaInt}
      (run : cancelPendingRemove id g a = .ok () b) :
      Step (a, history) (b, history.set id.toNat g (history id.toNat g).restore)
  | cancelPendingRemoveThrows {a b : WorldIdAllocator} {history : History} {id g : JavaInt} {e : JavaException}
      (run : cancelPendingRemove id g a = .err e b) : Step (a, history) (b, history)
  | prepareCommitBatch {a b : WorldIdAllocator} {history : History} {memory : Memory}
      (left : (prepareCommitBatch memory a).Leaves b) : Step (a, history) (b, history)
  | commitBatch {a prepared b : WorldIdAllocator} {history : History} {memory : Memory}
      (prepare : prepareCommitBatch memory a = .ok () prepared) (run : commitBatch prepared = .ok () b) :
      Step (a, history) (b, fun id g => (history id g).commit)

/-- The calls made on a new allocator. -/
def Reaches (allocator : WorldIdAllocator) (history : History) : Prop :=
  Relation.ReflTransGen Step ({}, fun _ _ => .unused) (allocator, history)

def statusOf : IdState → HandleStatus
  | .unused => .unused
  | .free | .retired => .gone
  | .live => .live
  | .pendingAdd => .added
  | .pendingRemove => .removed
  | .pendingAddRemove => .addedRemoved

/-- The slots and the handles agree: what was handed out of an id before its generation is gone, and past the
committed ids nothing is. -/
structure Agrees (allocator : WorldIdAllocator) (history : History) : Prop where
  sound : allocator.Sound
  slot : ∀ id s g, allocator.view id = some (s, g) → history id g = statusOf s
  past : ∀ id g, history id g = .unused ∨ history id g = .withdrawn ∨
    ∃ s g', allocator.view id = some (s, g') ∧ (g = g' ∨ history id g = .gone ∧ g.toNat ≤ g'.toNat)
  tail : ∀ id g, allocator.committedHighWaterMark < id → history id g ≠ .gone

section Agreement

variable {allocator after : WorldIdAllocator} {history : History} {id : Nat} {g : JavaInt}

theorem agrees_new : Agrees {} fun _ _ => .unused := by
  refine ⟨sound_new, fun id s g read => ?_, fun _ _ => Or.inl rfl, fun _ _ _ => nofun⟩
  have used : ((({} : WorldIdAllocator).view id).isSome) = true := by rw [read]; rfl
  have := (view_isSome sound_new).mp used
  exact absurd this.2 (by dsimp only; omega)

theorem Agrees.stutters (h : Agrees allocator history) (stutters : Stutters allocator after) (sound : after.Sound) :
    Agrees after history := by
  refine ⟨sound, fun id s g read => ?_, fun id g => ?_, fun id g far => h.tail id g (stutters.committed ▸ far)⟩
  · rcases stutters.view id with same | ⟨g', free, retired⟩
    · exact h.slot id s g (same ▸ read)
    · rw [retired] at read
      obtain ⟨rfl, rfl⟩ := Prod.mk.inj (Option.some.inj read)
      exact h.slot id .free g' free
  · rcases h.past id g with unused | withdrawn | ⟨s, g', read, order⟩
    · exact Or.inl unused
    · exact Or.inr (Or.inl withdrawn)
    · refine Or.inr (Or.inr ?_)
      rcases stutters.view id with same | ⟨g'', free, retired⟩
      · exact ⟨s, g', same.trans read, order⟩
      · obtain ⟨rfl, rfl⟩ := Prod.mk.inj (Option.some.inj (free.symm.trans read))
        exact ⟨.retired, g'', retired, order⟩

/-- One slot goes to another state and keeps its generation. -/
theorem Agrees.move (h : Agrees allocator history) {state next : IdState} (read : allocator.view id = some (state, g))
    (changes : Changes allocator after id (some (next, g))) (sound : after.Sound)
    (low : statusOf next = .gone → id ≤ allocator.committedHighWaterMark) :
    Agrees after (history.set id g (statusOf next)) := by
  refine ⟨sound, fun other s g' read' => ?_, fun other g' => ?_, fun other g' far => ?_⟩
  · rw [changes.view] at read'
    by_cases same : other = id
    · rw [if_pos same] at read'
      obtain ⟨rfl, rfl⟩ := Prod.mk.inj (Option.some.inj read')
      rw [same, History.set_self]
    · rw [if_neg same] at read'
      rw [History.set_ne fun both => same both.1]
      exact h.slot other s g' read'
  · by_cases here : other = id ∧ g' = g
    · obtain ⟨rfl, rfl⟩ := here
      exact Or.inr (Or.inr ⟨next, g', by rw [changes.view, if_pos rfl], Or.inl rfl⟩)
    · rw [History.set_ne here]
      refine (h.past other g').imp_right (Or.imp_right ?_)
      rintro ⟨s, g'', read', order⟩
      by_cases same : other = id
      · subst same
        obtain ⟨rfl, rfl⟩ := Prod.mk.inj (Option.some.inj (read.symm.trans read'))
        exact ⟨next, g, by rw [changes.view, if_pos rfl], order⟩
      · exact ⟨s, g'', by rw [changes.view, if_neg same, read'], order⟩
  · rw [changes.committed] at far
    by_cases here : other = id ∧ g' = g
    · obtain ⟨rfl, rfl⟩ := here
      rw [History.set_self]
      exact fun gone => absurd (low gone) (Nat.not_le_of_lt far)
    · rw [History.set_ne here]
      exact h.tail other g' far

/-- A handle that is handed out was not used, or was withdrawn. -/
theorem Agrees.unused (h : Agrees allocator history) (out : HandsOut allocator after id g) :
    history id g = .unused ∨ history id g = .withdrawn := by
  rcases h.past id g with unused | withdrawn | ⟨s, g', read, order⟩
  · exact Or.inl unused
  · exact Or.inr withdrawn
  · rcases out.fresh with ⟨none', -⟩ | ⟨old, free, rfl, nonzero⟩
    · rw [none'] at read
      cases read
    · obtain ⟨rfl, rfl⟩ := Prod.mk.inj (Option.some.inj (free.symm.trans read))
      exfalso
      rcases order with same | ⟨-, le⟩
      · bv_omega
      · bv_omega

theorem Agrees.handsOut (h : Agrees allocator history) (out : HandsOut allocator after id g) (sound : after.Sound) :
    Agrees after (history.set id g .added) := by
  have view := out.changes.view
  refine ⟨sound, fun other s g' read => ?_, fun other g' => ?_, fun other g' far => ?_⟩
  · rw [view] at read
    by_cases same : other = id
    · rw [if_pos same] at read
      obtain ⟨rfl, rfl⟩ := Prod.mk.inj (Option.some.inj read)
      rw [same, History.set_self]
      rfl
    · rw [if_neg same] at read
      rw [History.set_ne fun both => same both.1]
      exact h.slot other s g' read
  · by_cases here : other = id ∧ g' = g
    · obtain ⟨rfl, rfl⟩ := here
      exact Or.inr (Or.inr ⟨.pendingAdd, g', by rw [view, if_pos rfl], Or.inl rfl⟩)
    · rw [History.set_ne here]
      refine (h.past other g').imp_right (Or.imp_right ?_)
      rintro ⟨s, g'', read, order⟩
      by_cases same : other = id
      · subst same
        rcases out.fresh with ⟨none', -⟩ | ⟨old, free, rfl, nonzero⟩
        · rw [none'] at read
          cases read
        · obtain ⟨rfl, rfl⟩ := Prod.mk.inj (Option.some.inj (free.symm.trans read))
          have more : old.toNat ≤ (old + 1).toNat := by bv_omega
          refine ⟨.pendingAdd, old + 1, by rw [view, if_pos rfl], Or.inr ?_⟩
          rcases order with rfl | ⟨gone, le⟩
          · exact ⟨h.slot other .free g' free, more⟩
          · exact ⟨gone, le.trans more⟩
      · exact ⟨s, g'', by rw [view, if_neg same, read], order⟩
  · rw [out.changes.committed] at far
    by_cases here : other = id ∧ g' = g
    · obtain ⟨rfl, rfl⟩ := here
      rw [History.set_self]
      nofun
    · rw [History.set_ne here]
      exact h.tail other g' far

/-- The last id past the committed ones is given back. -/
theorem Agrees.withdraw (h : Agrees allocator history) (read : allocator.view id = some (.pendingAdd, g))
    (changes : Changes allocator after id none) (sound : after.Sound) (high : allocator.committedHighWaterMark < id) :
    Agrees after (history.set id g .withdrawn) := by
  refine ⟨sound, fun other s g' read' => ?_, fun other g' => ?_, fun other g' far => ?_⟩
  · rw [changes.view] at read'
    split at read'
    · cases read'
    · rename_i different
      rw [History.set_ne fun both => different both.1]
      exact h.slot other s g' read'
  · by_cases here : other = id ∧ g' = g
    · obtain ⟨rfl, rfl⟩ := here
      exact Or.inr (Or.inl (History.set_self ..))
    · rw [History.set_ne here]
      rcases h.past other g' with unused | withdrawn | ⟨s, g'', read', order⟩
      · exact Or.inl unused
      · exact Or.inr (Or.inl withdrawn)
      · by_cases same : other = id
        · subst same
          obtain ⟨rfl, rfl⟩ := Prod.mk.inj (Option.some.inj (read.symm.trans read'))
          rcases order with rfl | ⟨gone, -⟩
          · exact absurd ⟨rfl, rfl⟩ here
          · exact absurd gone (h.tail other g' high)
        · exact Or.inr (Or.inr ⟨s, g'', by rw [changes.view, if_neg same, read'], order⟩)
  · rw [changes.committed] at far
    by_cases here : other = id ∧ g' = g
    · obtain ⟨rfl, rfl⟩ := here
      rw [History.set_self]
      nofun
    · rw [History.set_ne here]
      exact h.tail other g' far

theorem statusOf_settled (slot : IdState × JavaInt) : statusOf (settled slot).1 = (statusOf slot.1).commit := by
  obtain ⟨state, g⟩ := slot
  cases state with
  | pendingRemove | pendingAddRemove =>
    show statusOf (if g = -1 then .retired else .free) = .gone
    split <;> rfl
  | unused | free | live | pendingAdd | retired => rfl

theorem settled_generation (slot : IdState × JavaInt) : (settled slot).2 = slot.2 := by
  obtain ⟨state, g⟩ := slot
  cases state <;> rfl

theorem Agrees.commit (h : Agrees allocator history) (view : ∀ id, after.view id = (allocator.view id).map settled)
    (sound : after.Sound) (mark : after.committedHighWaterMark = allocator.highWaterMark) :
    Agrees after fun id g => (history id g).commit := by
  have stays : ∀ id g, history id g = .unused ∨ history id g = .withdrawn →
      (history id g).commit = .unused ∨ (history id g).commit = .withdrawn := by
    rintro id g (unused | withdrawn)
    · exact Or.inl (by rw [unused]; rfl)
    · exact Or.inr (by rw [withdrawn]; rfl)
  refine ⟨sound, fun id s g read => ?_, fun id g => ?_, fun id g far => ?_⟩
  · rw [view] at read
    obtain ⟨slot, was, is⟩ := Option.map_eq_some_iff.mp read
    have same := settled_generation slot
    rw [is] at same
    have status := statusOf_settled slot
    rw [is] at status
    rw [status, h.slot id slot.1 g (was.trans (congrArg some (Prod.ext rfl same.symm)))]
  · rcases h.past id g with unused | withdrawn | ⟨s, g', read, order⟩
    · exact Or.inl (by rw [unused]; rfl)
    · exact Or.inr (Or.inl (by rw [withdrawn]; rfl))
    · refine Or.inr (Or.inr ⟨(settled (s, g')).1, g', ?_, ?_⟩)
      · rw [view, read, Option.map_some]
        exact congrArg some (Prod.ext rfl (settled_generation (s, g')))
      · exact order.imp_right fun ⟨gone, le⟩ => ⟨by rw [gone]; rfl, le⟩
  · have outside : allocator.view id = none := by
      rw [← Option.not_isSome_iff_eq_none, view_isSome h.sound]
      omega
    rcases h.past id g with unused | withdrawn | ⟨s, g', read, -⟩
    · rw [unused]
      nofun
    · rw [withdrawn]
      nofun
    · rw [outside] at read
      cases read

theorem prepareCommitBatch_cases (h : allocator.Sound) (memory : Memory) :
    (∃ e, prepareCommitBatch memory allocator = .err e allocator) ∨
      ∃ after, prepareCommitBatch memory allocator = .ok () after ∧ Stutters allocator after ∧ after.Sound ∧
        Prepared after ∧ after.highWaterMark = allocator.highWaterMark := by
  rcases prepareCommitBatch_spec h memory with ⟨e, run⟩ | ⟨after, run, kept, prepared, -⟩
  · exact Or.inl ⟨e, run⟩
  · have counted := validate_run h allocator.pendingIds.reverse fun id member => List.mem_reverse.mp member
    have run' := run
    unfold prepareCommitBatch at run'
    rw [Call.get_bind, Call.bind_ok counted] at run'
    rcases ensureFreeCapacity_spec allocator memory (releases allocator allocator.pendingIds.reverse) with
      ⟨e, failed⟩ | ⟨grown, grows, regrown, -⟩
    · rw [failed] at run'
      cases run'
    · obtain ⟨-, rfl⟩ := Outcome.ok.inj (grows.symm.trans run')
      exact Or.inr ⟨grown, run, .of_view regrown.committedHighWaterMark regrown.view, kept.sound, prepared,
        regrown.highWaterMark⟩

theorem HandsOut.generation (h : HandsOut allocator after id g) (sound : after.Sound) :
    generation (BitVec.ofNat 32 id) after = .ok g after := by
  have read : after.view id = some (.pendingAdd, g) := by rw [h.changes.view, if_pos rfl]
  obtain ⟨pos, inside⟩ := (view_isSome sound).mp (by rw [read]; rfl)
  have small := inside.trans sound.bound
  have natural : (BitVec.ofNat 32 id).toNat = id := toNat_handleOf small
  have current : Current after (BitVec.ofNat 32 id) g .pendingAdd := (current_iff sound).mpr (by rw [natural, read])
  have isCurrent := current.isCurrent
  unfold WorldIdAllocator.generation requireKnownId generationAt
  rw [Call.bind_bind, Call.get_bind, Call.bind_bind,
    Call.rejectIf_bind_neg (not_or.mpr ⟨current.positive, current.inside⟩), Call.bind_bind,
    Call.bind_ok (state_run current.known), Call.bind_bind, Call.rejectIf_bind_neg current.used, Call.pure_bind',
    Call.get_bind, isCurrent]
  rfl

/-- What a reservation does: no handle is handed out that was used. -/
theorem Agrees.reserve (h : Agrees allocator history) (memory : Memory) :
    (∃ e after, reserve memory allocator = .err e after ∧ Agrees after history) ∨
      ∃ id after g, reserve memory allocator = .ok id after ∧ Agrees after (history.set id g .added) ∧
        WorldIdAllocator.generation (BitVec.ofNat 32 id) after = .ok g after ∧
        (history id g = .unused ∨ history id g = .withdrawn) ∧
        ∀ g, allocator.view id ≠ some (.retired, g) := by
  have sound : ∀ after : WorldIdAllocator, (WorldIdAllocator.reserve memory allocator).Leaves after → after.Sound := by
    intro after left
    rcases reserve_spec memory h.sound with ⟨e, last, run, kept⟩ | ⟨id, last, run, reserved⟩
    · exact left.of_err run ▸ kept.sound
    · exact left.of_ok run ▸ reserved.sound
  rcases reserve_views memory h.sound with ⟨e, after, run, stutters⟩ | ⟨id, after, run, mid, g, stutters, midSound, out⟩
  · refine Or.inl ⟨e, after, run, h.stutters stutters (sound after ?_)⟩
    rw [run]
    exact Or.inr ⟨e, rfl⟩
  · have soundAfter : after.Sound := by
      refine sound after ?_
      rw [run]
      exact Or.inl ⟨id, rfl⟩
    have agrees := h.stutters stutters midSound
    refine Or.inr ⟨id, after, g, run, agrees.handsOut out soundAfter, out.generation soundAfter, agrees.unused out,
      fun old retired => ?_⟩
    have still : mid.view id = some (.retired, old) := by
      rcases stutters.view id with same | ⟨g', free, -⟩
      · rw [same, retired]
      · rw [retired] at free
        cases free
    rcases out.fresh with ⟨none', -⟩ | ⟨g', free, -⟩
    · rw [still] at none'
      cases none'
    · rw [still] at free
      cases free

/-- Every call keeps the slots and the handles in agreement. -/
theorem Agrees.step (h : Agrees allocator history) {history' : History}
    (step : Step (allocator, history) (after, history')) : Agrees after history' := by
  cases step with
  | reserve run is =>
    rcases h.reserve _ with ⟨e, last, failed, -⟩ | ⟨id, last, g, run', agrees, is', -⟩
    · rw [failed] at run
      cases run
    · obtain ⟨rfl, rfl⟩ := Outcome.ok.inj (run'.symm.trans run)
      obtain ⟨rfl, -⟩ := Outcome.ok.inj (is'.symm.trans is)
      exact agrees
  | reserveThrows run =>
    rcases h.reserve _ with ⟨e, last, failed, agrees⟩ | ⟨id, last, g, run', -⟩
    · obtain ⟨-, rfl⟩ := Outcome.err.inj (failed.symm.trans run)
      exact agrees
    · rw [run'] at run
      cases run
  | requireUsable left =>
    rcases requireUsable_spec h.sound _ _ with ⟨e, run⟩ | ⟨run, -⟩
    · rwa [left.of_err run]
    · rwa [left.of_ok run]
  | remove run =>
    have sound : after.Sound := (Call.of_eq_ok (remove_spec _ h.sound _ _) run).sound
    rcases Call.of_eq_ok ((remove_views _ h.sound _ _).imp_left And.left) run with ⟨read, changes⟩ | ⟨read, changes⟩
    · rw [h.slot _ _ _ read]
      exact h.move read changes sound nofun
    · rw [h.slot _ _ _ read]
      exact h.move read changes sound nofun
  | removeThrows run =>
    obtain rfl := Call.of_eq_err (remove_spec _ h.sound _ _) run
    exact h
  | cancelPendingAdd run =>
    obtain ⟨sound, read, changes⟩ := Call.of_eq_ok (cancelPendingAdd_views _ h.sound _ _) run
    split
    · rename_i high
      rw [if_pos high] at changes
      exact h.withdraw read changes sound high
    · rename_i low
      rw [if_neg low] at changes
      exact h.move read changes sound fun _ => Nat.le_of_not_lt low
  | cancelPendingAddThrows run =>
    obtain rfl := Call.of_eq_err (cancelPendingAdd_views _ h.sound _ _) run
    exact h
  | cancelPendingRemove run =>
    obtain ⟨sound, ⟨read, changes⟩ | ⟨read, changes⟩⟩ := Call.of_eq_ok (cancelPendingRemove_views h.sound _ _) run
    · rw [h.slot _ _ _ read]
      exact h.move read changes sound nofun
    · rw [h.slot _ _ _ read]
      exact h.move read changes sound nofun
  | cancelPendingRemoveThrows run =>
    obtain rfl := Call.of_eq_err (cancelPendingRemove_views h.sound _ _) run
    exact h
  | prepareCommitBatch left =>
    rcases prepareCommitBatch_cases h.sound _ with ⟨e, run⟩ | ⟨last, run, stutters, sound, -⟩
    · rwa [left.of_err run]
    · rw [left.of_ok run]
      exact h.stutters stutters sound
  | commitBatch prepare run =>
    obtain ⟨stutters, sound, prepared, -⟩ := Call.of_eq_ok (prepareCommitBatch_cases h.sound _) prepare
    obtain ⟨done, run', soundAfter, committed, -⟩ := commitBatch_spec sound prepared
    obtain ⟨-, rfl⟩ := Outcome.ok.inj (run'.symm.trans run)
    exact (h.stutters stutters sound).commit (fun id => commitBatch_views sound run id) soundAfter committed.slots

theorem Reaches.agrees (h : Reaches allocator history) : Agrees allocator history := by
  have each : ∀ last, Relation.ReflTransGen Step ({}, fun _ _ => .unused) last → Agrees last.1 last.2 := by
    intro last run
    induction run with
    | refl => exact agrees_new
    | tail _ step ih => exact ih.step step
  exact each _ h

/-- A retired id stays retired. -/
theorem Agrees.retired (h : Agrees allocator history) {history' : History}
    (step : Step (allocator, history) (after, history')) (retired : allocator.view id = some (.retired, g)) :
    after.view id = some (.retired, g) := by
  have stuttered : ∀ {last : WorldIdAllocator}, Stutters allocator last → last.view id = some (.retired, g) := by
    intro last stutters
    rcases stutters.view id with same | ⟨g', free, -⟩
    · rw [same, retired]
    · rw [retired] at free
      cases free
  have changed : ∀ {last : WorldIdAllocator} {other : Nat} {state : IdState} {g' : JavaInt} {slot : Option (IdState × JavaInt)},
      Changes allocator last other slot → allocator.view other = some (state, g') → state ≠ .retired →
      last.view id = some (.retired, g) := by
    intro last other state g' slot changes read used
    rw [changes.view]
    split
    · rename_i same
      rw [← same, retired] at read
      exact absurd (Prod.mk.inj (Option.some.inj read)).1.symm used
    · exact retired
  cases step with
  | reserve run is =>
    rcases reserve_views _ h.sound with ⟨e, last, failed, -⟩ | ⟨other, last, run', mid, g', stutters, -, out⟩
    · rw [failed] at run
      cases run
    · obtain ⟨rfl, rfl⟩ := Outcome.ok.inj (run'.symm.trans run)
      have still := stuttered stutters
      rw [out.changes.view]
      split
      · rename_i same
        rw [same] at still
        rcases out.fresh with ⟨none', -⟩ | ⟨old, free, -⟩
        · rw [still] at none'
          cases none'
        · rw [still] at free
          cases free
      · exact still
  | reserveThrows run =>
    rcases reserve_views _ h.sound with ⟨e, last, failed, stutters⟩ | ⟨other, last, run', -⟩
    · obtain ⟨-, rfl⟩ := Outcome.err.inj (failed.symm.trans run)
      exact stuttered stutters
    · rw [run'] at run
      cases run
  | requireUsable left =>
    rcases requireUsable_spec h.sound _ _ with ⟨e, run⟩ | ⟨run, -⟩
    · rwa [left.of_err run]
    · rwa [left.of_ok run]
  | remove run =>
    rcases Call.of_eq_ok ((remove_views _ h.sound _ _).imp_left And.left) run with ⟨read, changes⟩ | ⟨read, changes⟩
    · exact changed changes read nofun
    · exact changed changes read nofun
  | removeThrows run =>
    obtain rfl := Call.of_eq_err (remove_spec _ h.sound _ _) run
    exact retired
  | cancelPendingAdd run =>
    obtain ⟨-, read, changes⟩ := Call.of_eq_ok (cancelPendingAdd_views _ h.sound _ _) run
    exact changed changes read nofun
  | cancelPendingAddThrows run =>
    obtain rfl := Call.of_eq_err (cancelPendingAdd_views _ h.sound _ _) run
    exact retired
  | cancelPendingRemove run =>
    obtain ⟨-, ⟨read, changes⟩ | ⟨read, changes⟩⟩ := Call.of_eq_ok (cancelPendingRemove_views h.sound _ _) run
    · exact changed changes read nofun
    · exact changed changes read nofun
  | cancelPendingRemoveThrows run =>
    obtain rfl := Call.of_eq_err (cancelPendingRemove_views h.sound _ _) run
    exact retired
  | prepareCommitBatch left =>
    rcases prepareCommitBatch_cases h.sound _ with ⟨e, run⟩ | ⟨last, run, stutters, -⟩
    · rwa [left.of_err run]
    · rw [left.of_ok run]
      exact stuttered stutters
  | commitBatch prepare run =>
    obtain ⟨stutters, sound, -⟩ := Call.of_eq_ok (prepareCommitBatch_cases h.sound _) prepare
    rw [commitBatch_views sound run, stuttered stutters]
    rfl

/-- Where a slot is listed is told by its state. -/
theorem SoundUpTo.listed {committed : Nat} (h : SoundUpTo committed allocator) (id : Nat) :
    (id ∈ allocator.freeIds ↔ allocator.look id = some .free) ∧
      (id ∈ allocator.pendingIds ↔ allocator.look id = some .pendingAdd ∨ allocator.look id = some .pendingRemove ∨
        allocator.look id = some .pendingAddRemove) := by
  by_cases pos : 0 < id
  · have each := h.each id pos
    cases known : allocator.look id with
    | none =>
      rw [known] at each
      simp [each.2.1, each.2.2]
    | some state =>
      rw [known] at each
      cases state with
      | unused => simp [each.2.1, each.2.2.1]
      | free | live | pendingAdd | pendingRemove | pendingAddRemove | retired => simp [each.2.1, each.2.2]
  · have unknown : allocator.look id = none := if_pos (by omega)
    rw [unknown]
    have notFree : id ∉ allocator.freeIds := fun member => pos (h.freePos id member)
    have notPending : id ∉ allocator.pendingIds := fun member => pos (h.pendingPos id member)
    simp [notFree, notPending]

theorem Agrees.usable (h : Agrees allocator history) (handle : JavaInt) :
    (allocator.view handle.toNat = some (.live, g) ∨ allocator.view handle.toNat = some (.pendingAdd, g)) ↔
      (history handle.toNat g = .live ∨ history handle.toNat g = .added) := by
  constructor
  · rintro (live | pending)
    · exact Or.inl (h.slot _ _ _ live)
    · exact Or.inr (h.slot _ _ _ pending)
  · intro usable
    rcases h.past handle.toNat g with unused | withdrawn | ⟨s, g', read, order⟩
    · rcases usable with live | added
      · rw [unused] at live
        cases live
      · rw [unused] at added
        cases added
    · rcases usable with live | added
      · rw [withdrawn] at live
        cases live
      · rw [withdrawn] at added
        cases added
    · rcases order with rfl | ⟨gone, -⟩
      · have status := h.slot _ _ _ read
        rw [status] at usable
        cases s with
        | live => exact Or.inl read
        | pendingAdd => exact Or.inr read
        | unused | free | pendingRemove | pendingAddRemove | retired => rcases usable with h' | h' <;> cases h'
      · rw [gone] at usable
        rcases usable with h' | h' <;> cases h'

/-- Whatever is called on an allocator: a handle is handed out once, but for withdrawn ones; a handle is usable and
removable while its object is live or added and not removed; the lists hold each free and each pending id once; a
retired id is never reserved again; and a prepared commit does not throw. -/
theorem handles_safe (reaches : Reaches allocator history) :
    (∀ memory id after, WorldIdAllocator.reserve memory allocator = .ok id after →
      ∃ g, WorldIdAllocator.generation (BitVec.ofNat 32 id) after = .ok g after ∧
        (history id g = .unused ∨ history id g = .withdrawn)) ∧
    (∀ handle g, (∃ after, requireUsable handle g allocator = .ok () after) ↔
      history handle.toNat g = .live ∨ history handle.toNat g = .added) ∧
    (∀ memory handle g, ((∃ after, WorldIdAllocator.remove memory handle g allocator = .ok () after) →
        history handle.toNat g = .live ∨ history handle.toNat g = .added) ∧
      (memory.pending = true → history handle.toNat g = .live ∨ history handle.toNat g = .added →
        ∃ after, WorldIdAllocator.remove memory handle g allocator = .ok () after)) ∧
    (allocator.freeIds.Nodup ∧ ∀ id, id ∈ allocator.freeIds ↔ allocator.look id = some .free) ∧
    (allocator.pendingIds.Nodup ∧ ∀ id, id ∈ allocator.pendingIds ↔ allocator.look id = some .pendingAdd ∨
      allocator.look id = some .pendingRemove ∨ allocator.look id = some .pendingAddRemove) ∧
    (∀ id, allocator.look id = some .retired → ∀ later history',
      Relation.ReflTransGen Step (allocator, history) (later, history') →
      later.look id = some .retired ∧ ∀ memory after, WorldIdAllocator.reserve memory later ≠ .ok id after) ∧
    ∀ memory prepared, WorldIdAllocator.prepareCommitBatch memory allocator = .ok () prepared →
      ∃ after, WorldIdAllocator.commitBatch prepared = .ok () after := by
  have h := reaches.agrees
  refine ⟨fun memory id after run => ?_, fun handle g => ?_, fun memory handle g => ⟨fun ⟨after, run⟩ => ?_,
    fun granted usable => ?_⟩, ⟨h.sound.freeNodup, fun id => (h.sound.listed id).1⟩,
    ⟨h.sound.pendingNodup, fun id => (h.sound.listed id).2⟩, fun id retired later history' run => ?_,
    fun memory prepared run => ?_⟩
  · rcases h.reserve memory with ⟨e, last, failed, -⟩ | ⟨id', last, g, run', -, is, fresh, -⟩
    · rw [failed] at run
      cases run
    · obtain ⟨rfl, rfl⟩ := Outcome.ok.inj (run'.symm.trans run)
      exact ⟨g, is, fresh⟩
  · rw [← h.usable handle]
    rcases requireUsable_views h.sound handle g with ⟨⟨e, run⟩, notLive, notPending⟩ | ⟨run, usable⟩
    · refine ⟨fun ⟨after, run'⟩ => ?_, fun usable => (usable.elim notLive notPending).elim⟩
      rw [run] at run'
      cases run'
    · exact ⟨fun _ => usable, fun _ => ⟨allocator, run⟩⟩
  · rw [← h.usable handle]
    rcases remove_views memory h.sound handle g with ⟨⟨e, failed⟩, -⟩ | ⟨last, -, ⟨read, -⟩ | ⟨read, -⟩⟩
    · rw [failed] at run
      cases run
    · exact Or.inl read
    · exact Or.inr read
  · rw [← h.usable handle] at usable
    rcases remove_views memory h.sound handle g with ⟨-, off⟩ | ⟨last, run, -⟩
    · exact (usable.elim (off granted).1 (off granted).2).elim
    · exact ⟨last, run⟩
  · obtain ⟨g, -, is⟩ := h.sound.generation_run retired
    have still : ∀ last, Relation.ReflTransGen Step (allocator, history) last →
        Agrees last.1 last.2 ∧ last.1.view id = some (.retired, g) := by
      intro last run
      induction run with
      | refl => exact ⟨h, view_eq_some.mpr ⟨retired, nofun, is⟩⟩
      | tail _ step ih => exact ⟨ih.1.step step, ih.1.retired step ih.2⟩
    obtain ⟨agrees, view⟩ := still _ run
    refine ⟨(view_eq_some.mp view).1, fun memory after run' => ?_⟩
    rcases agrees.reserve memory with ⟨e, last, failed, -⟩ | ⟨id', last, g', reserved, -, -, -, unretired⟩
    · rw [failed] at run'
      cases run'
    · obtain ⟨rfl, -⟩ := Outcome.ok.inj (reserved.symm.trans run')
      exact unretired g view
  · obtain ⟨-, sound, ready, -⟩ := Call.of_eq_ok (prepareCommitBatch_cases h.sound memory) run
    obtain ⟨after, committed, -⟩ := commitBatch_spec sound ready
    exact ⟨after, committed⟩

/-- The first id is given, committed, given back and given again: its old handle is refused, the new one is usable. -/
theorem handles_safe_reused : ∃ allocator history, Reaches allocator history ∧
    (¬ ∃ after, requireUsable 1 1 allocator = .ok () after) ∧ ∃ after, requireUsable 1 2 allocator = .ok () after := by
  let memory : Memory := ⟨true, true, true⟩
  have run : ((WorldIdAllocator.reserve memory {}).returned.any fun first =>
      decide (first.1 = 1) && ((generation 1 first.2).returned.any fun known => decide (known.1 = 1)) &&
      (WorldIdAllocator.prepareCommitBatch memory first.2).returned.any fun ready =>
        (WorldIdAllocator.commitBatch ready.2).returned.any fun committed =>
          (WorldIdAllocator.remove memory 1 1 committed.2).returned.any fun removed =>
            (WorldIdAllocator.prepareCommitBatch memory removed.2).returned.any fun ready' =>
              (WorldIdAllocator.commitBatch ready'.2).returned.any fun emptied =>
                (WorldIdAllocator.reserve memory emptied.2).returned.any fun second =>
                  decide (second.1 = 1) && (generation 1 second.2).returned.any fun known => decide (known.1 = 2)) = true := by
    decide +kernel
  obtain ⟨⟨_, first⟩, reserves, run⟩ := (Option.any_eq_true _ _).mp run
  obtain ⟨given, run⟩ := Bool.and_eq_true_iff.mp run
  obtain ⟨isOne, isFirst⟩ := Bool.and_eq_true_iff.mp given
  obtain ⟨⟨_, ready⟩, prepares, run⟩ := (Option.any_eq_true _ _).mp run
  obtain ⟨⟨_, committed⟩, commits, run⟩ := (Option.any_eq_true _ _).mp run
  obtain ⟨⟨_, removed⟩, removes, run⟩ := (Option.any_eq_true _ _).mp run
  obtain ⟨⟨_, ready'⟩, prepares', run⟩ := (Option.any_eq_true _ _).mp run
  obtain ⟨⟨_, emptied⟩, commits', run⟩ := (Option.any_eq_true _ _).mp run
  obtain ⟨⟨_, allocator⟩, reserves', given⟩ := (Option.any_eq_true _ _).mp run
  obtain ⟨isOne', isSecond⟩ := Bool.and_eq_true_iff.mp given
  obtain rfl := of_decide_eq_true isOne
  obtain rfl := of_decide_eq_true isOne'
  -- a generation that is read leaves the allocator as it is
  have reads : ∀ {a b : WorldIdAllocator} {history : History} {g : JavaInt}, Reaches a history →
      WorldIdAllocator.reserve memory a = .ok 1 b →
      ((generation 1 b).returned.any fun known => decide (known.1 = g)) = true → generation 1 b = .ok g b := by
    intro a b history g reaches reserves is
    obtain ⟨known, read, -⟩ := (handles_safe reaches).1 memory 1 b reserves
    have read : generation 1 b = .ok known b := read
    rw [read] at is
    rw [read, @of_decide_eq_true (known = g) _ is]
  have first' : Reaches first _ := .single (.reserve (Outcome.of_returned reserves)
    (reads .refl (Outcome.of_returned reserves) isFirst))
  have empty : Reaches emptied _ :=
    .tail (.tail (.tail first' (.commitBatch (Outcome.of_returned prepares) (Outcome.of_returned commits)))
      (.remove (Outcome.of_returned removes)))
      (.commitBatch (Outcome.of_returned prepares') (Outcome.of_returned commits'))
  have reaches : Reaches allocator _ := .tail empty (.reserve (Outcome.of_returned reserves')
    (reads empty (Outcome.of_returned reserves') isSecond))
  refine ⟨allocator, _, reaches, ?_, ?_⟩
  · rw [(handles_safe reaches).2.1 1 1]
    dsimp only
    decide
  · rw [(handles_safe reaches).2.1 1 2]
    dsimp only
    decide

end Agreement

end WorldIdAllocator

end Hynergy
