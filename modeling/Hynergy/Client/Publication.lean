import Hynergy.Client.SubscriptionRegistry

/-!
# Publications

The active subscriptions of a system are the live ones of its world, whatever is done with it. The
subscriptions of the records of a tick were active when it began, and stay registered until the publication
ends.
-/

namespace Hynergy.ElectricalSystem

open Relation
open ObservationSubscriptionRegistry (Sound ActiveKey)
open ElectricalWorld (Tracks Live)
open WorldCommands (RawCommand)

variable {F : Type} [F64 F] {definitions : DefinitionRegistry F} {fromBits : BitVec 64 → F}
  {self after : ElectricalSystem F} {commands : List RawCommand}

/-- The system is usable, and its registry in step with its world. -/
structure Fine (definitions : DefinitionRegistry F) (system : ElectricalSystem F) : Prop where
  usable : system.poisoned = false
  registry : system.subscriptions.Sound system.subscriptions.deferredRemovals
  idle : system.subscriptions.publishing = false → system.subscriptions.deferredRemovals = []
  linked : ∃ commands, Tracks definitions system.world commands ∧
    ∀ key, system.subscriptions.ActiveKey key ↔ Live system.world commands key
  fresh : ∀ (subscription : Nat) (object : ObservationSubscription), system.subscriptions.objects[subscription]? = some object →
    ∀ next, system.world.world.subscriptions.nextId = some next → object.nativeId.get < next

/-- What operations leave: a publication goes on with its records, and no entry is taken out. -/
structure Frame (before after : ElectricalSystem F) : Prop where
  ticking : after.ticking = before.ticking
  records : after.world.records = before.world.records
  publishing : after.subscriptions.publishing = before.subscriptions.publishing
  entries : before.subscriptions.publishing = true → before.subscriptions.subscriptions ⊆ after.subscriptions.subscriptions

omit [F64 F] in
theorem Frame.refl (system : ElectricalSystem F) : Frame system system := ⟨rfl, rfl, rfl, fun _ _ member => member⟩

omit [F64 F] in
theorem Frame.trans {mid : ElectricalSystem F} (h : Frame self mid) (h' : Frame mid after) : Frame self after :=
  ⟨h'.ticking.trans h.ticking, h'.records.trans h.records, h'.publishing.trans h.publishing,
    fun on _ member => h'.entries (h.publishing.trans on) (h.entries on member)⟩

/-- However the call ends, where the engine does not fail. -/
def Safe {α : Type} (definitions : DefinitionRegistry F) (call : SystemCall F α) : Prop :=
  ∀ self, Fine definitions self → (call self).Meets True (fun _ after => Fine definitions after ∧ Frame self after)
    fun error after => error.isEngineFailure = true ∨ Fine definitions after ∧ Frame self after

namespace Safe

variable {α β : Type}

theorem bind {call : SystemCall F α} {next : α → SystemCall F β} (h : Safe definitions call)
    (rest : ∀ value, Safe definitions (next value)) : Safe definitions (call >>= next) := by
  intro self fine
  refine Call.meets_bind ((h self fine).mono id ?_ fun _ _ failed => failed)
  rintro value mid ⟨fine', frame⟩
  exact (rest value mid fine').mono id (fun _ _ ⟨fine'', frame'⟩ => ⟨fine'', frame.trans frame'⟩)
    fun _ _ failed => failed.imp_right fun ⟨fine'', frame'⟩ => ⟨fine'', frame.trans frame'⟩

theorem pure (value : α) : Safe definitions (Pure.pure value : SystemCall F α) := fun self fine => ⟨fine, .refl self⟩

theorem rejectIf {condition : Prop} [Decidable condition] {error : WorldException} :
    Safe definitions (Call.rejectIf condition error : SystemCall F Unit) := by
  intro self fine
  unfold Call.rejectIf
  split
  · exact Or.inr ⟨fine, .refl self⟩
  · exact ⟨fine, .refl self⟩

theorem requireUsable : Safe definitions (requireUsable : SystemCall F Unit) := fun self fine => rejectIf self fine

end Safe

/-- The world goes on with the same live subscriptions. -/
theorem Fine.onWorld (h : Fine definitions self)
    (active : ∀ key, self.subscriptions.ActiveKey key ↔ Live self.world commands key) {world : ElectricalWorld F}
    {later : List RawCommand} (continues : ElectricalWorld.Continues definitions self.world commands [] world later) :
    Fine definitions { self with world } ∧ Frame self { self with world } := by
  refine ⟨⟨h.usable, h.registry, h.idle, ⟨later, continues.tracks, fun key => ?_⟩, ?_⟩,
    rfl, continues.records, rfl, fun _ _ member => member⟩
  · rw [continues.live, and_iff_left List.not_mem_nil]
    exact active key
  · intro subscription object there next known
    exact h.fresh subscription object there next (continues.next.symm.trans known)

omit [F64 F] in
theorem onWorld_ok {α : Type} {call : ElectricalWorld.WorldCall F α} {value : α} {world : ElectricalWorld F}
    (run : call self.world = .ok value world) : onWorld call self = .ok value { self with world } := Call.zoom_ok run

omit [F64 F] in
theorem onWorld_err {α : Type} {call : ElectricalWorld.WorldCall F α} {error : WorldException} {world : ElectricalWorld F}
    (run : call self.world = .err error world) : onWorld call self = .err error { self with world } := Call.zoom_err run

omit [F64 F] in
theorem onWorld_panic {α : Type} {call : ElectricalWorld.WorldCall F α} (run : call self.world = .panic) :
    onWorld call self = .panic := by
  unfold onWorld Call.zoom
  rw [run]

omit [F64 F] in
theorem onSubscriptions_ok {α : Type} {call : ObservationSubscriptionRegistry.RegistryCall α} {value : α}
    {subscriptions : ObservationSubscriptionRegistry} (run : call self.subscriptions = .ok value subscriptions) :
    onSubscriptions call self = .ok value { self with subscriptions } := Call.zoom_ok run

/-! ### Editing -/

/-- An operation that the world settles, and that removes no device. -/
theorem Safe.settles {α : Type} {call : ElectricalWorld.WorldCall F α}
    (settles : ∀ world commands, ElectricalWorld.Pending world commands →
      ElectricalWorld.Settles world commands [] (call world)) : Safe definitions (onWorld call) := by
  intro self fine
  obtain ⟨commands, tracks, active⟩ := fine.linked
  have settled := (settles self.world commands tracks.pending).continues tracks
  cases run : call self.world with
  | ok value world =>
    rw [run] at settled
    obtain ⟨later, continues⟩ := settled
    rw [onWorld_ok run]
    exact fine.onWorld active continues
  | err error world =>
    rw [run] at settled
    obtain ⟨later, continues⟩ := settled
    rw [onWorld_err run]
    exact Or.inr (fine.onWorld active continues)
  | panic =>
    rw [onWorld_panic run]
    exact trivial

theorem wireGeneration_safe (wireId : JavaInt) : Safe definitions (onWorld (ElectricalWorld.wireGeneration (F := F) wireId)) := by
  refine .settles fun world commands pending => ?_
  unfold ElectricalWorld.wireGeneration
  rw [Call.bind_ok (ElectricalWorld.requireUsable_run pending.usable)]
  exact (ElectricalWorld.generation_keeps pending (WorldIdAllocator.generation_reads wireId)).1

theorem deviceGeneration_safe (deviceId : JavaInt) :
    Safe definitions (onWorld (ElectricalWorld.deviceGeneration (F := F) deviceId)) := by
  refine .settles fun world commands pending => ?_
  unfold ElectricalWorld.deviceGeneration
  rw [Call.bind_ok (ElectricalWorld.requireUsable_run pending.usable)]
  exact (ElectricalWorld.generation_keeps pending (WorldIdAllocator.generation_reads deviceId)).2

theorem requireWire_safe (id : WireHandle) : Safe definitions (onWorld (ElectricalWorld.requireWire (F := F) id)) := by
  refine .settles fun world commands pending => ?_
  unfold ElectricalWorld.requireWire
  rw [Call.bind_ok (ElectricalWorld.requireUsable_run pending.usable)]
  rcases WorldIdAllocator.requireUsable_spec pending.wires id.value id.generation with ⟨e, run⟩ | ⟨run, -⟩
  · exact .of_err pending (Call.zoom_err run)
  · exact .of_ok pending (Call.zoom_ok run)

/-- A removed device takes its subscriptions along on both sides. -/
theorem removeDevice_safe (grants : Grants) (deviceId generation : JavaInt) :
    Safe definitions (removeDevice (F := F) grants deviceId generation) := by
  refine .bind .requireUsable fun _ self fine => ?_
  obtain ⟨commands, tracks, active⟩ := fine.linked
  have settled := (ElectricalWorld.removeDevice_settles tracks.pending grants deviceId generation).continues tracks
  cases run : ElectricalWorld.removeDevice grants deviceId generation self.world with
  | err error world =>
    rw [run] at settled
    obtain ⟨later, continues⟩ := settled
    rw [Call.bind_err (onWorld_err run)]
    exact Or.inr (fine.onWorld active continues)
  | panic =>
    rw [Call.bind_panic (onWorld_panic run)]
    exact trivial
  | ok _ world =>
    rw [run] at settled
    obtain ⟨later, continues⟩ := settled
    obtain ⟨subscriptions, invalidates, sound, idle, keeps, active'⟩ :=
      ObservationSubscriptionRegistry.invalidateDevice_run fine.registry fine.idle deviceId
    have invalidated : onSubscriptions (ObservationSubscriptionRegistry.invalidateDevice deviceId) { self with world } =
        .ok () { self with world, subscriptions } := onSubscriptions_ok invalidates
    rw [Call.bind_ok (onWorld_ok run)]
    unfold orPoison
    rw [invalidated]
    refine ⟨⟨fine.usable, sound, idle, ⟨later, continues.tracks, fun key => ?_⟩, ?_⟩, rfl, continues.records,
      keeps.publishing, keeps.entries⟩
    · rw [active', active, continues.live, List.mem_singleton]
    · intro subscription object there next known
      obtain ⟨before, there, same⟩ := keeps.objects subscription object there
      rw [same]
      exact fine.fresh subscription before there next (continues.next.symm.trans known)

/-! ### Subscribing -/

theorem subscribe_safe (grants rollbackGrants : Grants) (deviceId generation observerId : JavaInt) :
    Safe definitions (subscribe definitions fromBits grants rollbackGrants deviceId generation observerId) := by
  refine .bind .requireUsable fun _ self fine => ?_
  obtain ⟨commands, tracks, active⟩ := fine.linked
  have subscribed := @ElectricalWorld.subscribeObserver_continues _ _ _ fromBits _ _ tracks grants deviceId generation observerId
  cases run : ElectricalWorld.subscribeObserver definitions fromBits grants deviceId generation observerId self.world with
  | err error world =>
    rw [run] at subscribed
    rw [Call.bind_err (onWorld_err run)]
    refine subscribed.imp_right fun ⟨later, continues⟩ => fine.onWorld active continues
  | panic =>
    rw [Call.bind_panic (onWorld_panic run)]
    exact trivial
  | ok nativeId world =>
    rw [run] at subscribed
    obtain ⟨positive, subscribes⟩ := subscribed
    have unused : ∀ entry ∈ self.subscriptions.subscriptions, entry.1 ≠ nativeId := by
      rintro ⟨id, subscription⟩ member rfl
      obtain ⟨object, there, named, -⟩ := fine.registry.known id subscription member
      have below := fine.fresh subscription object there _ subscribes.isNext
      rw [named] at below
      exact Nat.lt_irrefl _ below
    obtain ⟨subscriptions, adds, sound, publishing, deferred, objects, entries, active'⟩ :=
      @ObservationSubscriptionRegistry.add_run self.subscriptions fine.registry nativeId deviceId unused
    rw [Call.bind_ok (onWorld_ok run)]
    have registers : (do
        let subscription ← onSubscriptions (ObservationSubscriptionRegistry.construct nativeId deviceId)
        onSubscriptions (ObservationSubscriptionRegistry.add subscription)
        pure subscription : SystemCall F Nat) { self with world } =
        .ok self.subscriptions.objects.length { self with world, subscriptions } := by
      have constructs : ObservationSubscriptionRegistry.construct nativeId deviceId self.subscriptions =
          .ok self.subscriptions.objects.length
            { self.subscriptions with objects := self.subscriptions.objects ++ [{ nativeId, deviceId }] } :=
        Call.rejectIf_bind_neg positive _
      have constructed : onSubscriptions (ObservationSubscriptionRegistry.construct nativeId deviceId) { self with world } =
          .ok self.subscriptions.objects.length { self with
            world
            subscriptions := { self.subscriptions with
              objects := self.subscriptions.objects ++ [{ nativeId, deviceId }] } } := onSubscriptions_ok constructs
      rw [Call.bind_ok constructed, Call.bind_ok (onSubscriptions_ok adds)]
      rfl
    unfold orUnsubscribe
    rw [registers]
    refine ⟨⟨fine.usable, sound, fun off => ?_, ⟨[], subscribes.tracks, fun key => ?_⟩, ?_⟩, rfl, subscribes.records,
      publishing, fun _ => entries⟩
    · exact deferred.trans (fine.idle (publishing.symm.trans off))
    · rw [active', active, subscribes.live]
    · intro subscription object there next known
      have isNext := subscribes.next next known
      have there : (self.subscriptions.objects ++ [({ nativeId, deviceId } : ObservationSubscription)])[subscription]? =
          some object := objects ▸ there
      rcases List.mem_append.mp (List.mem_of_getElem? there) with old | isNew
      · obtain ⟨r, there⟩ := List.getElem?_of_mem old
        have below := fine.fresh r object there _ subscribes.isNext
        omega
      · rw [List.mem_singleton.mp isNew]
        dsimp only at isNext ⊢
        omega

/-- An active subscription is known on both sides. -/
theorem unsubscribe_safe (grants : Grants) (subscription : Nat) :
    Safe definitions (unsubscribeActive definitions fromBits grants subscription) := by
  intro self fine
  unfold unsubscribeActive
  cases there : self.subscriptions.objects[subscription]? with
  | none =>
    have fails : ObservationSubscriptionRegistry.dereference subscription self.subscriptions = .panic := by
      unfold ObservationSubscriptionRegistry.dereference
      rw [Call.get_bind, there]
      rfl
    have panics : onSubscriptions (ObservationSubscriptionRegistry.dereference subscription) self = .panic := by
      unfold onSubscriptions Call.zoom
      rw [fails]
    rw [Call.bind_panic panics]
    exact trivial
  | some object =>
    have reads : onSubscriptions (ObservationSubscriptionRegistry.dereference subscription) self = .ok object self :=
      onSubscriptions_ok (ObservationSubscriptionRegistry.dereference_run there)
    rw [Call.bind_ok reads]
    by_cases off : object.active = true
    swap
    · rw [if_neg off]
      exact Safe.pure () self fine
    rw [if_pos off]
    unfold unsubscribe
    have usable : requireUsable self = .ok () self := by
      unfold requireUsable
      rw [Call.get_bind]
      exact if_neg (by simp [fine.usable])
    rw [Call.bind_ok usable, Call.bind_ok reads, Call.rejectIf_bind_neg (by simp [off])]
    obtain ⟨commands, tracks, active⟩ := fine.linked
    have live := (active (object.nativeId.get, object.deviceId.toNat)).mp ⟨subscription, object, there, off, rfl, rfl⟩
    have unsubscribed := @ElectricalWorld.unsubscribe_continues _ _ _ fromBits _ _ tracks grants _ _ live
    cases run : ElectricalWorld.unsubscribe definitions fromBits grants (BitVec.ofNat 32 object.nativeId.get) self.world with
    | err error world =>
      rw [run] at unsubscribed
      have fails : orPoison WorldException.isOwnershipConsistencyFailure (onWorld (ElectricalWorld.unsubscribe definitions
          fromBits grants (BitVec.ofNat 32 object.nativeId.get))) self = .err error { self with
            world, poisoned := error.isOwnershipConsistencyFailure || self.poisoned } := by
        unfold orPoison
        rw [onWorld_err run]
      rw [Call.bind_err fails]
      rcases unsubscribed with failed | ⟨owned, continues⟩
      · exact Or.inl failed
      · rw [owned]
        exact Or.inr (fine.onWorld active continues)
    | panic =>
      have fails : orPoison WorldException.isOwnershipConsistencyFailure (onWorld (ElectricalWorld.unsubscribe definitions
          fromBits grants (BitVec.ofNat 32 object.nativeId.get))) self = .panic := by
        unfold orPoison
        rw [onWorld_panic run]
      rw [Call.bind_panic fails]
      exact trivial
    | ok _ world =>
      rw [run] at unsubscribed
      have returns : orPoison WorldException.isOwnershipConsistencyFailure (onWorld (ElectricalWorld.unsubscribe definitions
          fromBits grants (BitVec.ofNat 32 object.nativeId.get))) self = .ok () { self with world } := by
        unfold orPoison
        rw [onWorld_ok run]
      obtain ⟨subscriptions, removes, retired⟩ :=
        ObservationSubscriptionRegistry.remove_run fine.registry fine.idle there off
      have removed : onSubscriptions (ObservationSubscriptionRegistry.remove subscription) { self with world } =
          .ok () { self with world, subscriptions } := onSubscriptions_ok removes
      rw [Call.bind_ok returns]
      unfold orPoison
      rw [removed]
      have keeps := retired.continues
      refine ⟨⟨fine.usable, retired.sound, retired.idle, ⟨[], unsubscribed.tracks, fun key => ?_⟩, ?_⟩, rfl,
        unsubscribed.records, keeps.publishing, keeps.entries⟩
      · rw [retired.active, active, unsubscribed.live]
      · intro r found there' next known
        obtain ⟨before, there', same⟩ := keeps.objects r found there'
        rw [same]
        exact fine.fresh r before there' next (unsubscribed.next.symm.trans known)

/-- Whatever is done with the system, it stays usable and in step with its world. -/
theorem SystemOperation.safe (operation : SystemOperation) : Safe definitions (operation.run definitions fromBits) := by
  cases operation with
  | createWire grants =>
    refine .bind (.bind .requireUsable fun _ => .bind (.settles fun world commands pending =>
      ElectricalWorld.addWire_settles pending grants) fun id => .bind (wireGeneration_safe id) fun _ =>
      .bind .rejectIf fun _ => .pure _) fun _ => .pure _
  | resolveWire id =>
    exact .bind (.bind .requireUsable fun _ => .bind (requireWire_safe id) fun _ => .pure _) fun _ => .pure _
  | connect grants first second =>
    exact .bind .requireUsable fun _ => .settles fun world commands pending =>
      ElectricalWorld.connectWires_settles pending grants first second
  | disconnect grants first second =>
    exact .bind .requireUsable fun _ => .settles fun world commands pending =>
      ElectricalWorld.disconnectWires_settles pending grants first second
  | removeWire grants wire =>
    exact .bind .requireUsable fun _ => .settles fun world commands pending =>
      ElectricalWorld.removeWire_settles pending grants wire
  | create grants definitionId =>
    exact .bind (.bind .requireUsable fun _ => .bind (.settles fun world commands pending =>
      ElectricalWorld.addDevice_settles pending grants definitionId) fun id => .bind (deviceGeneration_safe id) fun _ =>
      .pure _) fun _ => .pure _
  | setParameter grants deviceId generation parameterId value =>
    exact .bind .requireUsable fun _ => .settles fun world commands pending =>
      ElectricalWorld.setDeviceParameter_settles pending grants deviceId generation parameterId value
  | attachTerminal grants deviceId generation terminalId wire =>
    exact .bind .requireUsable fun _ => .settles fun world commands pending =>
      ElectricalWorld.attachTerminal_settles pending grants wire deviceId generation terminalId
  | detachTerminal grants deviceId generation terminalId wire =>
    exact .bind .requireUsable fun _ => .settles fun world commands pending =>
      ElectricalWorld.detachTerminal_settles pending grants wire deviceId generation terminalId
  | removeDevice grants deviceId generation => exact removeDevice_safe grants deviceId generation
  | subscribe grants rollbackGrants deviceId generation observerId =>
    exact .bind (subscribe_safe grants rollbackGrants deviceId generation observerId) fun _ => .pure _
  | unsubscribe grants subscription => exact unsubscribe_safe grants subscription

/-! ### Runs -/

/-- Every record has an active subscription when the publication begins, and the listeners called are those
of the records so far. -/
structure Publication.Delivers (publication : Publication) : Prop where
  count : publication.recordCount = publication.records.length
  known : ∀ record ∈ publication.records, ∃ subscription object,
    publication.started.get record.subscriptionId = some subscription ∧
      publication.started.objects[subscription]? = some object ∧ object.active = true
  calls : List.Forall₂ (fun record call =>
      publication.started.get record.subscriptionId = some call.1 ∧ call.2 = record.observation)
    (publication.records.take publication.index) publication.calls

/-- What holds while a publication goes on. -/
structure UnderWay (system : ElectricalSystem F) (publication : Publication) : Prop where
  publishing : system.subscriptions.publishing = true
  ticking : system.ticking = true
  records : system.world.records = publication.records
  index : publication.index ≤ publication.recordCount
  delivers : publication.Delivers
  entries : publication.started.subscriptions ⊆ system.subscriptions.subscriptions

structure Running (state : SystemState F) : Prop where
  fine : Fine state.definitions state.system
  rests : state.publication = none → state.system.subscriptions.publishing = false ∧ state.system.ticking = false
  underWay : ∀ publication, state.publication = some publication → UnderWay state.system publication
  ended : ∀ publication ∈ state.published, publication.Delivers ∧ publication.index = publication.recordCount

theorem Fine.succeeds {α : Type} (h : Fine definitions self) {call : SystemCall F α} (safe : Safe definitions call)
    (run : Succeeds (call self) after) : Fine definitions after ∧ Frame self after := by
  have ends := safe self h
  rcases run with ⟨value, run⟩ | ⟨error, run, accepted⟩
  · rw [run] at ends
    exact ends
  · rw [run] at ends
    rcases ends with failed | ends
    · cases accepted.symm.trans failed
    · exact ends

/-- The next record has a registered subscription with its listener. -/
theorem UnderWay.finds {publication : Publication} (h : UnderWay self publication) (fine : Fine definitions self)
    (more : publication.index < publication.recordCount) :
    ∃ record subscription, publication.records[publication.index]? = some record ∧
      publication.started.get record.subscriptionId = some subscription ∧
      Finds self publication.index record subscription := by
  have inside : publication.index < publication.records.length := by
    rw [← h.delivers.count]
    exact more
  obtain ⟨subscription, object, started, -, -⟩ := h.delivers.known _ (List.getElem_mem inside)
  have entry := h.entries (ObservationSubscriptionRegistry.entry_of_get started)
  obtain ⟨object, there, -, listens⟩ := fine.registry.known _ subscription entry
  refine ⟨_, subscription, List.getElem?_eq_getElem inside, started, ?_, fine.registry.get entry, object, there, listens⟩
  rw [h.records]
  exact List.getElem?_eq_getElem inside

omit [F64 F] in
theorem UnderWay.frame {publication : Publication} (h : UnderWay self publication) (frame : Frame self after) :
    UnderWay after publication :=
  ⟨frame.publishing.trans h.publishing, frame.ticking.trans h.ticking, frame.records.trans h.records, h.index, h.delivers,
    fun _ member => frame.entries h.publishing (h.entries member)⟩

omit [F64 F] in
theorem enterTick_cases (usable : self.poisoned = false) :
    enterTick self = .err (.java .illegalState) self ∧ self.ticking = true ∨
      enterTick self = .ok () { self with ticking := true } ∧ self.ticking = false := by
  have passes : requireUsable self = .ok () self := by
    unfold requireUsable
    rw [Call.get_bind]
    exact if_neg (by simp [usable])
  unfold enterTick
  rw [Call.bind_ok passes, Call.get_bind]
  by_cases ticking : self.ticking = true
  · exact Or.inl ⟨Call.rejectIf_bind_pos ticking _, ticking⟩
  · exact Or.inr ⟨Call.rejectIf_bind_neg ticking _, by simpa using ticking⟩

/-- A publication ends with the active subscriptions in the registry. -/
theorem endTick_fine (h : Fine definitions self) (publishing : self.subscriptions.publishing = true)
    (ends : (endTick self).Leaves after) :
    Fine definitions after ∧ after.subscriptions.publishing = false ∧ after.ticking = false := by
  obtain ⟨subscriptions, run, sound, empty, off, objects, active⟩ :=
    ObservationSubscriptionRegistry.endPublication_run h.registry publishing
  have returns : endTick self = .ok () { self with subscriptions, ticking := false } := by
    have ended : onSubscriptions ObservationSubscriptionRegistry.endPublication self = .ok () { self with subscriptions } :=
      onSubscriptions_ok run
    unfold endTick orPoison
    rw [ended]
  rw [ends.of_ok returns]
  refine ⟨⟨h.usable, sound, fun _ => empty, ?_, ?_⟩, off, rfl⟩
  · obtain ⟨commands, tracks, linked⟩ := h.linked
    exact ⟨commands, tracks, fun key => (active key).trans (linked key)⟩
  · intro r found there next known
    obtain ⟨before, there, same⟩ := objects r found there
    rw [same]
    exact h.fresh r before there next known

/-- How the tick of the world leaves the system, and the records where it returns. -/
theorem tick_fine (h : Fine definitions self) (grants : Grants) (answers : TickAnswers F) :
    (onWorld (ElectricalWorld.tick definitions fromBits grants answers) self).Meets True
      (fun recordCount after => Fine definitions after ∧ after.subscriptions = self.subscriptions ∧
        after.ticking = self.ticking ∧ recordCount = after.world.records.length ∧
        ∀ record ∈ after.world.records, ∃ subscription object,
          self.subscriptions.get record.subscriptionId = some subscription ∧
            self.subscriptions.objects[subscription]? = some object ∧ object.active = true)
      fun error after => error.isEngineFailure = true ∨ Fine definitions after ∧ after.subscriptions = self.subscriptions := by
  obtain ⟨commands, tracks, active⟩ := h.linked
  have ticked := @ElectricalWorld.tick_continues _ _ _ fromBits _ _ tracks grants answers
  cases run : ElectricalWorld.tick definitions fromBits grants answers self.world with
  | ok recordCount world =>
    rw [run] at ticked
    rw [onWorld_ok run]
    refine ⟨⟨h.usable, h.registry, h.idle, ⟨[], ticked.tracks, fun key => ?_⟩, ?_⟩, rfl, rfl, ticked.count, ?_⟩
    · rw [ticked.live]
      exact active key
    · intro r found there next known
      exact h.fresh r found there next (ticked.next.symm.trans known)
    · intro record member
      obtain ⟨device, live⟩ := ticked.known record member
      obtain ⟨r, object, there, on, sameId, -⟩ := (active _).mpr live
      have named : object.nativeId = record.subscriptionId := NonZeroId.ext' sameId
      exact ⟨r, object, h.registry.get (named ▸ h.registry.registered r object there on), there, on⟩
  | err error world =>
    rw [run] at ticked
    rw [onWorld_err run]
    rcases ticked with failed | ⟨later, continues⟩
    · exact Or.inl failed
    · exact Or.inr ⟨(h.onWorld active continues).1, rfl⟩
  | panic =>
    rw [onWorld_panic run]
    exact trivial

theorem Fine.entered (h : Fine definitions self) (ticking : Bool) : Fine definitions { self with ticking } :=
  ⟨h.usable, h.registry, h.idle, h.linked, h.fresh⟩

/-- The three ways in which the tick of a system goes on after the tick of the world. -/
theorem Running.ticks {state : SystemState F} (h : Running state) {entered : ElectricalSystem F}
    (enters : enterTick state.system = .ok () entered) :
    state.publication = none ∧ entered = { state.system with ticking := true } ∧ Fine state.definitions entered ∧
      entered.subscriptions.publishing = false := by
  rcases enterTick_cases h.fine.usable with ⟨refused, -⟩ | ⟨run, off⟩
  · cases refused.symm.trans enters
  · obtain ⟨-, rfl⟩ := Outcome.ok.inj (run.symm.trans enters)
    cases current : state.publication with
    | none => exact ⟨rfl, rfl, h.fine.entered true, (h.rests current).1⟩
    | some publication => cases off.symm.trans (h.underWay publication current).ticking

theorem Running.quiet {state : SystemState F} (h : Running state) {after : ElectricalSystem F}
    (none' : state.publication = none) (fine : Fine state.definitions after)
    (off : after.subscriptions.publishing = false) : Running { state with system := { after with ticking := false } } := by
  refine ⟨fine.entered false, fun _ => ⟨off, rfl⟩, fun publication current => ?_, h.ended⟩
  cases none'.symm.trans current

omit [F64 F] in
theorem beginPublication_run {registry : ObservationSubscriptionRegistry} (off : registry.publishing = false)
    (empty : registry.deferredRemovals = []) :
    ObservationSubscriptionRegistry.beginPublication registry = .ok () { registry with publishing := true } := by
  unfold ObservationSubscriptionRegistry.beginPublication
  rw [Call.get_bind, Call.rejectIf_bind_neg (by simp [off]), Call.rejectIf_bind_neg (not_not.mpr empty)]
  rfl

theorem Fine.publishing (h : Fine definitions self) :
    Fine definitions { self with subscriptions := { self.subscriptions with publishing := true } } :=
  ⟨h.usable, ⟨h.registry.unique, h.registry.known, h.registry.registered, h.registry.inactive, h.registry.once⟩,
    fun off => (by cases off), h.linked, h.fresh⟩

theorem Running.step {state next : SystemState F} (h : Running state) (step : Step fromBits state next) : Running next := by
  cases step with
  | register extends' reached =>
    obtain ⟨commands, tracks, active⟩ := h.fine.linked
    exact ⟨⟨h.fine.usable, h.fine.registry, h.fine.idle, ⟨commands, tracks.register extends' reached, active⟩, h.fine.fresh⟩,
      h.rests, h.underWay, h.ended⟩
  | operate operation run =>
    obtain ⟨fine, frame⟩ := h.fine.succeeds (operation.safe) run
    refine ⟨fine, fun none' => ?_, fun publication current => (h.underWay publication current).frame frame, h.ended⟩
    obtain ⟨off, still⟩ := h.rests none'
    exact ⟨frame.publishing.trans off, frame.ticking.trans still⟩
  | tickRefused refused =>
    rcases enterTick_cases h.fine.usable with ⟨run, -⟩ | ⟨run, -⟩
    · obtain ⟨-, rfl⟩ := Outcome.err.inj (run.symm.trans refused)
      exact h
    · cases run.symm.trans refused
  | tickThrows enters throws accepted =>
    obtain ⟨none', rfl, fine, off⟩ := h.ticks enters
    have ends := @tick_fine _ _ _ fromBits _ fine ‹_› ‹_›
    rw [throws] at ends
    rcases ends with failed | ⟨fine', same⟩
    · cases accepted.symm.trans failed
    · exact h.quiet none' fine' (same ▸ off)
  | tickQuiet enters ticks =>
    obtain ⟨none', rfl, fine, off⟩ := h.ticks enters
    have ends := @tick_fine _ _ _ fromBits _ fine ‹_› ‹_›
    rw [ticks] at ends
    exact h.quiet none' ends.1 (ends.2.1 ▸ off)
  | tickBegins enters ticks records begins =>
    obtain ⟨none', rfl, fine, off⟩ := h.ticks enters
    have ends := @tick_fine _ _ _ fromBits _ fine ‹_› ‹_›
    rw [ticks] at ends
    obtain ⟨fine', same, still, count, known⟩ := ends
    have starts := onSubscriptions_ok (beginPublication_run (same ▸ off) (fine'.idle (same ▸ off)))
    obtain ⟨-, rfl⟩ := Outcome.ok.inj (starts.symm.trans begins)
    refine ⟨fine'.publishing, fun wrong => (by cases wrong), fun publication current => ?_, h.ended⟩
    obtain rfl := Option.some.inj current
    refine ⟨rfl, still, rfl, Nat.zero_le _, ⟨count, fun record member => ?_, .nil⟩, fun _ member => member⟩
    show ∃ subscription object, _
    rw [same]
    exact known record member
  | tickUnready enters ticks records refused =>
    obtain ⟨none', rfl, fine, off⟩ := h.ticks enters
    have ends := @tick_fine _ _ _ fromBits _ fine ‹_› ‹_›
    rw [ticks] at ends
    obtain ⟨fine', same, -⟩ := ends
    have starts := onSubscriptions_ok (beginPublication_run (same ▸ off) (fine'.idle (same ▸ off)))
    cases starts.symm.trans refused
  | @publish publication record subscription current more finds =>
    have underWay := h.underWay _ current
    obtain ⟨record', subscription', read, started, finds'⟩ := underWay.finds h.fine more
    obtain rfl : record = record' := Option.some.inj (finds.read.symm.trans finds'.read)
    obtain rfl : subscription = subscription' := Option.some.inj (finds.registered.symm.trans finds'.registered)
    refine ⟨h.fine, fun wrong => (by cases wrong), fun next isNext => ?_, h.ended⟩
    obtain rfl := Option.some.inj isNext
    refine ⟨underWay.publishing, underWay.ticking, underWay.records, more, ⟨underWay.delivers.count, underWay.delivers.known, ?_⟩,
      underWay.entries⟩
    show List.Forall₂ _ (publication.records.take (publication.index + 1)) _
    rw [List.take_add_one, read]
    exact List.rel_append underWay.delivers.calls (.cons ⟨started, rfl⟩ .nil)
  | publishFails current more lost ends =>
    obtain ⟨record, subscription, -, -, finds⟩ := (h.underWay _ current).finds h.fine more
    exact (lost ⟨record, subscription, finds⟩).elim
  | tickEnds current done ends =>
    have underWay := h.underWay _ current
    obtain ⟨fine, off, still⟩ := endTick_fine h.fine underWay.publishing ends
    refine ⟨fine, fun _ => ⟨off, still⟩, fun publication none' => (by cases none'), fun publication member => ?_⟩
    rcases List.mem_append.mp member with old | last
    · exact h.ended publication old
    · rw [List.mem_singleton.mp last]
      exact ⟨underWay.delivers, done⟩

theorem running_new (known : definitions.Reached) {commandBuffer : WorldCommandBuffer} {granted : Bool}
    (made : WorldCommandBuffer.new (BitVec.ofNat 32 WorldCommandBuffer.defaultCapacity) granted = .ok () commandBuffer) :
    Running (new definitions commandBuffer) := by
  refine ⟨⟨rfl, ⟨List.nodup_nil, ?_, ?_, ?_, List.nodup_nil⟩, fun _ => rfl, ⟨[], .new known made, fun key => ?_⟩, ?_⟩,
    fun _ => ⟨rfl, rfl⟩, fun publication none' => (by cases none'), fun publication member => (by cases member)⟩
  · exact fun id subscription member => (List.not_mem_nil member).elim
  · exact fun subscription object there => (by cases there)
  · refine fun id => iff_of_false List.not_mem_nil ?_
    rintro ⟨subscription, object, member, -⟩
    exact List.not_mem_nil member
  · refine iff_of_false ?_ fun live => List.not_mem_nil live.1
    rintro ⟨subscription, object, there, -⟩
    cases there
  · exact fun subscription object there => (by cases there)

/-- What is observed of a system in a run. -/
structure Observed (fromBits : BitVec 64 → F) (state : SystemState F) : Prop where
  /-- Neither a tick nor anything else has poisoned it. -/
  usable : state.system.poisoned = false
  /-- The active subscriptions are those of the engine once the commands are applied. -/
  active : ∀ grants after, ElectricalWorld.applyCommands state.definitions fromBits grants state.system.world = .ok () after →
    ∀ id, Active state.system id ↔ ∃ subscription ∈ after.world.subscriptions.subscriptions, subscription.id.get = id
  /-- The next record has a registered subscription, whose listener is held. -/
  finds : ∀ publication, state.publication = some publication → publication.index < publication.recordCount →
    ∃ record subscription, Finds state.system publication.index record subscription
  delivers : ∀ publication, state.publication = some publication ∨ publication ∈ state.published → publication.Delivers
  /-- A publication ends after its last record. -/
  ended : ∀ publication ∈ state.published, publication.index = publication.recordCount
  /-- Between publications the registry holds the active subscriptions, and no removal is deferred. -/
  settled : state.publication = none → state.system.subscriptions.deferredRemovals = [] ∧
    (∀ entry ∈ state.system.subscriptions.subscriptions, Active state.system entry.1.get) ∧
    ∀ (subscription : Nat) object, state.system.subscriptions.objects[subscription]? = some object →
      object.active = true → (object.nativeId, subscription) ∈ state.system.subscriptions.subscriptions

/-- In every run the registry is in step with the engine, and each publication calls the listener of each of
its records once and in order, whatever the listeners do. -/
theorem observations_published (known : definitions.Reached) {commandBuffer : WorldCommandBuffer} {granted : Bool}
    (made : WorldCommandBuffer.new (BitVec.ofNat 32 WorldCommandBuffer.defaultCapacity) granted = .ok () commandBuffer)
    {state : SystemState F} (run : ReflTransGen (Step fromBits) (new definitions commandBuffer) state) :
    Observed fromBits state := by
  have running : Running state := by
    induction run with
    | refl => exact running_new known made
    | tail _ step ih => exact ih.step step
  have fine := running.fine
  refine ⟨fine.usable, ?_, ?_, ?_, fun publication member => (running.ended publication member).2, ?_⟩
  · intro grants after applied id
    obtain ⟨commands, tracks, active⟩ := fine.linked
    have continues := @ElectricalWorld.applyCommands_continues _ _ _ fromBits _ _ tracks grants
    rw [applied] at continues
    constructor
    · rintro ⟨subscription, object, -, there, on, rfl⟩
      have live := (active (object.nativeId.get, object.deviceId.toNat)).mp ⟨subscription, object, there, on, rfl, rfl⟩
      obtain ⟨native, member, same, -⟩ := SubscriptionRegistry.mem_keys.mp ((continues.live_iff _).mpr live)
      exact ⟨native, member, same⟩
    · rintro ⟨native, member, rfl⟩
      have key : (native.id.get, native.observer.device.get) ∈ after.world.subscriptions.keys :=
        SubscriptionRegistry.mem_keys.mpr ⟨native, member, rfl, rfl⟩
      obtain ⟨subscription, object, there, on, same, -⟩ := (active _).mpr ((continues.live_iff _).mp key)
      exact ⟨subscription, object, fine.registry.registered subscription object there on, there, on, same⟩
  · intro publication current more
    obtain ⟨record, subscription, -, -, finds⟩ := (running.underWay publication current).finds fine more
    exact ⟨record, subscription, finds⟩
  · rintro publication (current | member)
    · exact (running.underWay publication current).delivers
    · exact (running.ended publication member).1
  · intro none'
    have empty := fine.idle (running.rests none').1
    refine ⟨empty, ?_, fine.registry.registered⟩
    rintro ⟨id, subscription⟩ member
    obtain ⟨object, there, rfl, -⟩ := fine.registry.known id subscription member
    refine ⟨subscription, object, member, there, ?_, rfl⟩
    by_contra off
    have waits := (fine.registry.inactive object.nativeId).mpr ⟨subscription, object, member, there, by simpa using off⟩
    rw [empty] at waits
    cases waits

set_option maxRecDepth 8000 in
/-- A tick has a record for each of two subscriptions. The listener of the first drops the second, whose
listener is called nevertheless; afterwards only the first is registered. -/
theorem observations_published_twice : ∃ state : SystemState Float,
    Observed (fun bits => .ofBits ⟨bits⟩) state ∧ state.publication = none ∧
    state.published.map Publication.calls = [[(0, .unavailable), (1, .unavailable)]] ∧
    state.system.subscriptions.subscriptions.map Prod.snd = [0] := by
  have session : ((SystemOperation.run (.new : DefinitionRegistry Float) (fun bits => .ofBits ⟨bits⟩)
      (.create (.granted true) 1) { world :=
        { commandBuffer := ⟨true, WorldCommands.encodeHeader 0 ++ List.replicate 240 0, 256, 16, 0⟩ } }).returned.any fun created =>
      (SystemOperation.run .new (fun bits => .ofBits ⟨bits⟩) (.subscribe (.granted true) (.granted true) 1 1 0)
        created.2).returned.any fun first =>
      (SystemOperation.run .new (fun bits => .ofBits ⟨bits⟩) (.subscribe (.granted true) (.granted true) 1 1 1)
        first.2).returned.any fun second =>
      (enterTick second.2).returned.any fun entered =>
      (onWorld (ElectricalWorld.tick .new (fun bits => .ofBits ⟨bits⟩) (.granted true)
        ⟨true, true, [], fun _ => some .unavailable⟩) entered.2).returned.any fun ticked =>
      decide (ticked.1 = 2) &&
      (onSubscriptions ObservationSubscriptionRegistry.beginPublication ticked.2).returned.any fun begun =>
      decide (begun.2.world.records = [⟨.ofIndex 0 (by decide), .unavailable⟩, ⟨.ofIndex 1 (by decide), .unavailable⟩] ∧
        begun.2.subscriptions.get (.ofIndex 0 (by decide)) = some 0 ∧
        begun.2.subscriptions.objects[0]? = some ⟨.ofIndex 0 (by decide), 1, true, true⟩ ∧
        ticked.2.world.records = begun.2.world.records) &&
      (SystemOperation.run .new (fun bits => .ofBits ⟨bits⟩) (.unsubscribe (.granted true) 1) begun.2).returned.any fun dropped =>
      decide (dropped.2.world.records = [⟨.ofIndex 0 (by decide), .unavailable⟩, ⟨.ofIndex 1 (by decide), .unavailable⟩] ∧
        dropped.2.subscriptions.get (.ofIndex 1 (by decide)) = some 1 ∧
        dropped.2.subscriptions.objects[1]? = some ⟨.ofIndex 1 (by decide), 1, false, true⟩) &&
      (endTick dropped.2).returned.any fun ended =>
      decide (ended.2.subscriptions.subscriptions.map Prod.snd = [0])) = true := by
    decide +kernel
  obtain ⟨⟨_, created⟩, creates, session⟩ := (Option.any_eq_true _ _).mp session
  obtain ⟨⟨_, first⟩, subscribes, session⟩ := (Option.any_eq_true _ _).mp session
  obtain ⟨⟨_, second⟩, subscribes', session⟩ := (Option.any_eq_true _ _).mp session
  obtain ⟨⟨_, entered⟩, enters, session⟩ := (Option.any_eq_true _ _).mp session
  obtain ⟨⟨recordCount, ticked⟩, ticks, session⟩ := (Option.any_eq_true _ _).mp session
  rw [Bool.and_eq_true, decide_eq_true_iff] at session
  obtain ⟨rfl, session⟩ := session
  obtain ⟨⟨_, begun⟩, begins, session⟩ := (Option.any_eq_true _ _).mp session
  rw [Bool.and_eq_true, decide_eq_true_iff] at session
  obtain ⟨⟨records, registered, listens, same⟩, session⟩ := session
  obtain ⟨⟨_, dropped⟩, drops, session⟩ := (Option.any_eq_true _ _).mp session
  rw [Bool.and_eq_true, decide_eq_true_iff] at session
  obtain ⟨⟨records', registered', listens'⟩, session⟩ := session
  obtain ⟨⟨_, ended⟩, ends, left⟩ := (Option.any_eq_true _ _).mp session
  have made : WorldCommandBuffer.new (BitVec.ofNat 32 WorldCommandBuffer.defaultCapacity) true =
      .ok () ⟨true, WorldCommands.encodeHeader 0 ++ List.replicate 240 0, 256, 16, 0⟩ := rfl
  have run : ReflTransGen (Step fun bits => .ofBits ⟨bits⟩) (new (.new : DefinitionRegistry Float) _) _ :=
    .tail (.tail (.tail (.tail (.tail (.tail (.tail (.single
      (.operate (.create (.granted true) 1) (Or.inl ⟨_, Outcome.of_returned creates⟩)))
      (.operate (.subscribe (.granted true) (.granted true) 1 1 0) (Or.inl ⟨_, Outcome.of_returned subscribes⟩)))
      (.operate (.subscribe (.granted true) (.granted true) 1 1 1) (Or.inl ⟨_, Outcome.of_returned subscribes'⟩)))
      (.tickBegins (Outcome.of_returned enters) (Outcome.of_returned ticks) (Nat.succ_ne_zero 1) (Outcome.of_returned begins)))
      (.publish rfl Nat.two_pos ⟨congrArg (·[0]?) records, registered, _, listens, rfl⟩))
      (.operate (.unsubscribe (.granted true) 1) (Or.inl ⟨_, Outcome.of_returned drops⟩)))
      (.publish rfl Nat.one_lt_two ⟨congrArg (·[1]?) records', registered', _, listens', rfl⟩))
      (.tickEnds rfl rfl (Or.inl ⟨_, Outcome.of_returned ends⟩))
  exact ⟨_, observations_published .new made run, rfl, rfl, of_decide_eq_true left⟩

end Hynergy.ElectricalSystem
