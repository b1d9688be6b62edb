import Hynergy.Client.WireHandles
import Hynergy.World.Observers

/-!
# Live subscriptions

The subscriptions of the engine whose devices no pending command removes: those that are left once the
commands are applied. Only subscribing, unsubscribing and the removal of a device change them.
-/

namespace Hynergy

/-- `isOwnershipConsistencyFailure`. -/
def WorldException.isOwnershipConsistencyFailure : WorldException → Bool
  | .invalidSubscriptionId | .subscriptionFailed (.unknownSubscription _) => true
  | _ => false

namespace ElectricalWorld

open Call (Preserves)
open WorldCommands (RawCommand Applied applyTo)

variable {F : Type}

/-- An id with its device is live once the commands are applied. -/
def Live (world : ElectricalWorld F) (commands : List RawCommand) (key : Nat × Nat) : Prop :=
  key ∈ world.world.subscriptions.keys ∧ key.2 ∉ commands.flatMap WorldCommand.removedDevices

variable [F64 F] {registry : DefinitionRegistry F} {fromBits : BitVec 64 → F} {self after : ElectricalWorld F}
  {commands : List RawCommand} {grants : Grants}

/-- The client is in step with the engine, and the live subscriptions are those before without the
devices that are gone. -/
structure Continues (registry : DefinitionRegistry F) (before : ElectricalWorld F) (commands : List RawCommand)
    (gone : List Nat) (after : ElectricalWorld F) (later : List RawCommand) : Prop where
  tracks : Tracks registry after later
  live : ∀ key, Live after later key ↔ Live before commands key ∧ key.2 ∉ gone
  next : after.world.subscriptions.nextId = before.world.subscriptions.nextId
  records : after.records = before.records

theorem Continues.refl (h : Tracks registry self commands) : Continues registry self commands [] self commands :=
  ⟨h, fun _ => (and_iff_left List.not_mem_nil).symm, rfl, rfl⟩

theorem Continues.trans {mid : ElectricalWorld F} {later last : List RawCommand} {gone : List Nat}
    (h : Continues registry self commands [] mid later) (h' : Continues registry mid later gone after last) :
    Continues registry self commands gone after last := by
  refine ⟨h'.tracks, fun key => ?_, h'.next.trans h.next, h'.records.trans h.records⟩
  rw [h'.live, h.live, and_iff_left List.not_mem_nil]

theorem Leads.continues {later : List RawCommand} {gone : List Nat} (h : Tracks registry self commands)
    (leads : Leads self after later)
    (asked : later.flatMap WorldCommand.removedDevices = commands.flatMap WorldCommand.removedDevices ++ gone) :
    Continues registry self commands gone after later := by
  refine ⟨h.leads leads, fun key => ?_, congrArg (·.subscriptions.nextId) leads.world, leads.records⟩
  unfold Live
  rw [leads.world, asked, List.mem_append, not_or, and_assoc]

/-- A settled operation removes the devices that it asks to remove. -/
theorem Settles.continues {α : Type} (h : Tracks registry self commands) {removed : List Nat}
    {outcome : Outcome (ElectricalWorld F) WorldException α} (settles : Settles self commands removed outcome) :
    outcome.Meets False (fun _ after => ∃ later, Continues registry self commands removed after later)
      fun _ after => ∃ later, Continues registry self commands [] after later := by
  refine Outcome.Meets.mono settles id ?_ ?_
  · rintro value after ⟨later, leads, asked⟩
    exact ⟨later, leads.continues h asked⟩
  · rintro error after ⟨later, leads, asked⟩
    exact ⟨later, leads.continues h (asked.trans (List.append_nil _).symm)⟩

/-! ### The batch -/

/-- Applied commands take the subscriptions of removed devices along. -/
theorem applied_subscriptions {world next : Stores F} (applied : Applied (applyTo registry fromBits) commands world next) :
    next.subscriptions.nextId = world.subscriptions.nextId ∧
      ∀ key, key ∈ next.subscriptions.keys ↔
        key ∈ world.subscriptions.keys ∧ key.2 ∉ commands.flatMap WorldCommand.removedDevices := by
  induction applied with
  | nil => exact ⟨rfl, fun _ => (and_iff_left List.not_mem_nil).symm⟩
  | @cons command commands world mid next first _ ih =>
    obtain ⟨nextId, keys⟩ := ih
    have after := Stores.applyCommand_subscriptions (WorldCommands.applyTo_ok first)
    suffices mid.subscriptions.nextId = world.subscriptions.nextId ∧
        ∀ key, key ∈ mid.subscriptions.keys ↔ key ∈ world.subscriptions.keys ∧ key.2 ∉ command.removedDevices by
      refine ⟨nextId.trans this.1, fun key => ?_⟩
      rw [keys, this.2, List.flatMap_cons, List.mem_append, not_or, and_assoc]
    rw [after]
    cases command with
    | removeDevice device =>
      refine ⟨rfl, fun key => ?_⟩
      show key ∈ (world.subscriptions.removeDevice device).keys ↔ _
      rw [SubscriptionRegistry.removeDevice_keys, List.mem_filter, decide_eq_true_iff]
      exact and_congr_right fun _ => not_congr List.mem_singleton.symm
    | _ => exact ⟨rfl, fun _ => (and_iff_left List.not_mem_nil).symm⟩

/-- The records stay, and what is thrown is no ownership failure. -/
def Plain {α : Type} (call : WorldCall F α) : Prop :=
  ∀ self, (call self).Meets True (fun _ after => after.records = self.records)
    fun error after => after.records = self.records ∧ error.isOwnershipConsistencyFailure = false

section Plain

omit [F64 F]

theorem Plain.bind {α β : Type} {call : WorldCall F α} {next : α → WorldCall F β} (h : Plain call)
    (rest : ∀ value, Plain (next value)) : Plain (call >>= next) := by
  intro self
  refine Call.meets_bind ((h self).mono id (fun value after same => ?_) fun _ _ failed => failed)
  exact (rest value after).mono id (fun _ _ same' => same'.trans same) fun _ _ failed => ⟨failed.1.trans same, failed.2⟩

theorem Plain.onWires {α : Type} (call : WorldIdAllocator.Java α) : Plain (F := F) (onWires call) := by
  intro self
  unfold ElectricalWorld.onWires Call.zoom
  cases call self.wireIds with
  | ok _ _ => exact rfl
  | err _ _ => exact ⟨rfl, rfl⟩
  | panic => exact trivial

theorem Plain.onDevices {α : Type} (call : WorldIdAllocator.Java α) : Plain (F := F) (onDevices call) := by
  intro self
  unfold ElectricalWorld.onDevices Call.zoom
  cases call self.deviceIds with
  | ok _ _ => exact rfl
  | err _ _ => exact ⟨rfl, rfl⟩
  | panic => exact trivial

theorem Plain.onBuffer {α : Type} (call : WorldCommandBuffer.Java α) : Plain (F := F) (onBuffer call) := by
  intro self
  unfold ElectricalWorld.onBuffer Call.zoom
  cases call self.commandBuffer with
  | ok _ _ => exact rfl
  | err _ _ => exact ⟨rfl, rfl⟩
  | panic => exact trivial

theorem Plain.requireUsable : Plain (F := F) requireUsable := by
  intro self
  unfold ElectricalWorld.requireUsable
  rw [Call.get_bind, Call.rejectIf]
  split
  · exact ⟨rfl, rfl⟩
  · exact rfl

theorem Plain.orPoison {call : WorldCall F Unit} (h : Plain call) : Plain (orPoison call) := by
  intro self
  have called := h self
  unfold ElectricalWorld.orPoison
  cases run : call self with
  | ok _ _ =>
    rw [run] at called
    exact called
  | err _ _ =>
    rw [run] at called
    exact ⟨called.1, rfl⟩
  | panic => exact trivial

theorem Plain.andFinally {call last : WorldCall F Unit} (h : Plain call) (h' : Plain last) :
    Plain (andFinally call last) := by
  intro self
  have called := h self
  unfold ElectricalWorld.andFinally
  cases run : call self with
  | ok _ after =>
    rw [run] at called
    exact (h' after).mono id (fun _ _ same => same.trans called) fun _ _ failed => ⟨failed.1.trans called, failed.2⟩
  | err _ after =>
    rw [run] at called
    have done := h' after
    dsimp only
    cases run' : last after with
    | ok _ _ =>
      rw [run'] at done
      exact ⟨done.trans called.1, called.2⟩
    | err _ _ =>
      rw [run'] at done
      exact ⟨done.1.trans called.1, done.2⟩
    | panic => exact trivial
  | panic => exact trivial

end Plain

theorem applyCommands_plain (grants : Grants) : Plain (applyCommands registry fromBits grants) := by
  refine .bind .requireUsable fun _ self => ?_
  rw [Call.get_bind]
  split
  · exact rfl
  · refine Plain.bind (.onWires _) (fun _ => .bind (.onDevices _) fun _ => .bind (.onBuffer _) fun input =>
      .bind (.onBuffer _) fun length => .andFinally (.bind ?_ fun _ => .orPoison (.bind (.onWires _) fun _ =>
        .onDevices _)) (.onBuffer _)) self
    intro before
    unfold nativeApply
    split
    · exact rfl
    · exact ⟨rfl, rfl⟩
    · exact ⟨rfl, rfl⟩

theorem applyCommands_continues (h : Tracks registry self commands) (grants : Grants) :
    (applyCommands registry fromBits grants self).Meets False
      (fun _ after => Continues registry self commands [] after [])
      fun error after => error.isEngineFailure = true ∨
        error.isOwnershipConsistencyFailure = false ∧ Continues registry self commands [] after commands := by
  have spec := @applyCommands_spec _ _ _ fromBits _ _ h grants
  have plain := @applyCommands_plain _ _ registry fromBits grants self
  cases run : applyCommands registry fromBits grants self with
  | ok _ after =>
    rw [run] at spec plain
    obtain ⟨nextId, keys⟩ := applied_subscriptions spec.2
    refine ⟨spec.1, fun key => ?_, nextId, plain⟩
    unfold Live
    rw [keys]
    simp
  | err error after =>
    rw [run] at spec plain
    rcases spec with failed | leads
    · exact Or.inl failed
    · exact Or.inr ⟨plain.2, leads.continues h (List.append_nil _).symm⟩
  | panic =>
    rw [run] at spec
    exact spec.elim

/-- The live subscriptions are those of the engine once the commands are applied. -/
theorem Continues.live_iff (h : Continues registry self commands [] after []) (key : Nat × Nat) :
    key ∈ after.world.subscriptions.keys ↔ Live self commands key := by
  have live := h.live key
  rw [and_iff_left List.not_mem_nil] at live
  rw [← live]
  exact (and_iff_left List.not_mem_nil).symm

/-! ### Subscribing -/

/-- A new subscription is live, with an id that was never given out. -/
structure Subscribes (registry : DefinitionRegistry F) (before : ElectricalWorld F) (commands : List RawCommand)
    (key : Nat × Nat) (after : ElectricalWorld F) : Prop where
  tracks : Tracks registry after []
  live : ∀ other, Live after [] other ↔ Live before commands other ∨ other = key
  isNext : before.world.subscriptions.nextId = some key.1
  next : ∀ next, after.world.subscriptions.nextId = some next → next = key.1 + 1
  records : after.records = before.records

theorem nativeSubscribe_continues (h : Tracks registry self []) (deviceId observerId : JavaInt) :
    (nativeSubscribe registry deviceId observerId self).Meets False
      (fun id after => Subscribes registry self [] (id.get, deviceId.toNat) after)
      fun error after => error.isEngineFailure = true ∨ Continues registry self [] [] after [] := by
  have keeps := nativeSubscribe_keeps h deviceId observerId
  unfold nativeSubscribe at keeps ⊢
  cases known : nonZeroId? deviceId.toNat with
  | none => exact Or.inr (.refl h)
  | some device =>
    have get : device.get = deviceId.toNat := by
      unfold nonZeroId? at known
      split at known
      · exact congrArg NonZeroId.get (Option.some.inj known).symm
      · cases known
    dsimp only
    rcases Stores.subscribeObserver_cases h.reached.ascending device ⟨observerId.toNat, observerId.isLt⟩ with
      panics | ⟨error, fails⟩ | ⟨id, subscriptions, returns, ascends, keys, isNext, next⟩
    · rw [panics]
      exact Or.inl rfl
    · rw [fails]
      exact Or.inr (.refl h)
    · rw [returns]
      obtain ⟨start, reached, run⟩ := h.reached
      have tracks : Tracks registry { self with world := { self.world with subscriptions } } [] :=
        h.subscriptions ⟨start, reached, run.tail (.subscribe _ _ (Or.inl ⟨id, returns⟩))⟩ ⟨subscriptions, rfl⟩
      refine ⟨tracks, fun other => ?_, isNext, next, rfl⟩
      unfold Live
      rw [keys, List.mem_append, List.mem_singleton, get]
      simp

omit [F64 F] in
/-- A usable id is positive. -/
theorem positive_of_usable {ids : WorldIdAllocator} {id generation : JavaInt}
    (run : WorldIdAllocator.requireUsable id generation ids = .ok () ids) : ¬ id.toInt ≤ 0 := by
  intro negative
  have refused : WorldIdAllocator.requireKnownId id ids = .err .illegalState ids := Call.rejectIf_bind_pos (Or.inl negative) _
  have throws : WorldIdAllocator.requireUsable id generation ids = .err .illegalState ids :=
    Call.bind_err (Call.bind_err refused)
  cases throws.symm.trans run

theorem subscribeObserver_continues (h : Tracks registry self commands) (grants : Grants)
    (deviceId deviceGeneration observerId : JavaInt) :
    (subscribeObserver registry fromBits grants deviceId deviceGeneration observerId self).Meets False
      (fun id after => ¬ deviceId.toInt ≤ 0 ∧ Subscribes registry self commands (id.get, deviceId.toNat) after)
      fun error after => error.isEngineFailure = true ∨ ∃ later, Continues registry self commands [] after later := by
  unfold subscribeObserver
  rw [Call.bind_ok (requireUsable_run h.pending.usable)]
  rcases WorldIdAllocator.requireUsable_spec h.pending.devices deviceId deviceGeneration with ⟨e, run⟩ | ⟨run, -⟩
  · exact Outcome.Meets.of_err (Call.bind_err (Call.zoom_err run)) (Or.inr ⟨commands, .refl h⟩)
  have checked : onDevices (WorldIdAllocator.requireUsable deviceId deviceGeneration) self = .ok () self :=
    onDevices_ok run
  rw [Call.bind_ok checked]
  by_cases negative : observerId.toInt < 0
  · exact Outcome.Meets.of_err (Call.rejectIf_bind_pos negative _) (Or.inr ⟨commands, .refl h⟩)
  rw [Call.rejectIf_bind_neg negative]
  refine Call.meets_bind ((applyCommands_continues h grants).mono id ?_ ?_)
  · intro _ mid continues
    rw [Call.bind_ok (requireUsable_run continues.tracks.pending.usable)]
    refine (nativeSubscribe_continues continues.tracks deviceId observerId).mono id ?_ ?_
    · rintro id after subscribes
      refine ⟨positive_of_usable run, subscribes.tracks, fun other => ?_, continues.next.symm.trans subscribes.isNext, subscribes.next,
        subscribes.records.trans continues.records⟩
      rw [subscribes.live, continues.live, and_iff_left List.not_mem_nil]
    · exact fun error after failed => failed.imp_right fun last => ⟨[], continues.trans last⟩
  · exact fun error after failed => failed.imp_right fun continues => ⟨commands, continues.2⟩

/-- A live subscription is taken out, and no other. -/
structure Unsubscribes (registry : DefinitionRegistry F) (before : ElectricalWorld F) (commands : List RawCommand)
    (id : Nat) (after : ElectricalWorld F) : Prop where
  tracks : Tracks registry after []
  live : ∀ other, Live after [] other ↔ Live before commands other ∧ other.1 ≠ id
  next : after.world.subscriptions.nextId = before.world.subscriptions.nextId
  records : after.records = before.records

/-- The engine knows a live subscription. -/
theorem nativeUnsubscribe_live (h : Tracks registry self []) {id : SubscriptionId} {device : Nat}
    (live : Live self [] (id.get, device)) :
    ∃ after, nativeUnsubscribe (BitVec.ofNat 32 id.get) self = .ok () after ∧ Unsubscribes registry self [] id.get after := by
  have natural : (BitVec.ofNat 32 id.get : JavaInt).toNat = id.get := 
    (BitVec.toNat_ofNat ..).trans (Nat.mod_eq_of_lt id.fits)
  have known : nonZeroId? (BitVec.ofNat 32 id.get : JavaInt).toNat = some id := by
    rw [natural, nonZeroId?, dif_pos ⟨id.pos, id.fits⟩]
  unfold nativeUnsubscribe
  rw [known]
  dsimp only
  rcases Stores.unsubscribe_cases h.reached.ascending id with ⟨-, absent⟩ | ⟨subscriptions, returns, ascends, next, keys⟩
  · exact (absent _ live.1 rfl).elim
  · rw [returns]
    obtain ⟨start, reached, run⟩ := h.reached
    have tracks : Tracks registry { self with world := { self.world with subscriptions } } [] :=
      h.subscriptions ⟨start, reached, run.tail (.unsubscribe _ (Or.inl ⟨(), returns⟩))⟩ ⟨subscriptions, rfl⟩
    refine ⟨_, rfl, tracks, fun other => ?_, next, rfl⟩
    unfold Live
    rw [keys]
    simp

theorem unsubscribe_continues (h : Tracks registry self commands) (grants : Grants) {id : SubscriptionId} {device : Nat}
    (live : Live self commands (id.get, device)) :
    (unsubscribe registry fromBits grants (BitVec.ofNat 32 id.get) self).Meets False
      (fun _ after => Unsubscribes registry self commands id.get after)
      fun error after => error.isEngineFailure = true ∨
        error.isOwnershipConsistencyFailure = false ∧ Continues registry self commands [] after commands := by
  unfold unsubscribe
  rw [Call.bind_ok (requireUsable_run h.pending.usable)]
  have natural : (BitVec.ofNat 32 id.get : JavaInt).toNat = id.get :=
    (BitVec.toNat_ofNat ..).trans (Nat.mod_eq_of_lt id.fits)
  have nonzero : ¬ (BitVec.ofNat 32 id.get : JavaInt) = 0 := by
    intro zero
    rw [zero] at natural
    exact absurd id.pos (by rw [← natural]; decide)
  rw [Call.rejectIf_bind_neg nonzero]
  refine Call.meets_bind ((applyCommands_continues h grants).mono (fun never => never) ?_ fun _ _ failed => failed)
  intro _ mid continues
  rw [Call.bind_ok (requireUsable_run continues.tracks.pending.usable)]
  have stays : Live mid [] (id.get, device) := (continues.live _).mpr ⟨live, List.not_mem_nil⟩
  obtain ⟨after, run, unsubscribes⟩ := nativeUnsubscribe_live continues.tracks stays
  rw [run]
  refine ⟨unsubscribes.tracks, fun other => ?_, unsubscribes.next.trans continues.next,
    unsubscribes.records.trans continues.records⟩
  rw [unsubscribes.live, continues.live, and_iff_left List.not_mem_nil]

/-! ### Ticks -/

/-- A tick keeps the live subscriptions, and its records are of live ones. -/
structure Ticks (registry : DefinitionRegistry F) (before : ElectricalWorld F) (commands : List RawCommand)
    (recordCount : Nat) (after : ElectricalWorld F) : Prop where
  tracks : Tracks registry after []
  live : ∀ key, Live after [] key ↔ Live before commands key
  next : after.world.subscriptions.nextId = before.world.subscriptions.nextId
  count : recordCount = after.records.length
  known : ∀ record ∈ after.records, ∃ device, Live before commands (record.subscriptionId.get, device)

theorem tick_continues (h : Tracks registry self commands) (grants : Grants) (answers : TickAnswers F) :
    (tick registry fromBits grants answers self).Meets False
      (fun recordCount after => Ticks registry self commands recordCount after)
      fun error after => error.isEngineFailure = true ∨ ∃ later, Continues registry self commands [] after later := by
  have applies := @applyCommands_continues _ _ _ fromBits _ _ h grants
  refine (tick_spec h grants answers).mono id ?_ ?_
  · rintro recordCount after ⟨mid, applied, tracks, count, records, left⟩
    rw [applied] at applies
    have same : after.world.subscriptions.nextId = mid.world.subscriptions.nextId ∧
        after.world.subscriptions.keys = mid.world.subscriptions.keys := by
      rcases Stores.tick_subscriptions answers left with same | same
      · rw [same]
        exact ⟨rfl, rfl⟩
      · rw [same]
        exact ⟨rfl, Stores.publish_keys _ _⟩
    refine ⟨tracks, fun key => ?_, same.1.trans applies.next, count, fun record member => ?_⟩
    · unfold Live
      rw [same.2, applies.live_iff]
      exact and_iff_left List.not_mem_nil
    · rw [records] at member
      obtain ⟨subscription, inside, made⟩ := List.mem_filterMap.mp member
      obtain ⟨observation, -, rfl⟩ := Option.map_eq_some_iff.mp made
      exact ⟨subscription.observer.device.get, (applies.live_iff _).mp
        (SubscriptionRegistry.mem_keys.mpr ⟨subscription, inside, rfl, rfl⟩)⟩
  · rintro error after (failed | refused | applied)
    · exact Or.inl failed
    · rw [refused] at applies
      exact applies.imp_right fun continues => ⟨commands, continues.2⟩
    · rw [applied] at applies
      exact Or.inr ⟨[], applies⟩

end ElectricalWorld

end Hynergy
