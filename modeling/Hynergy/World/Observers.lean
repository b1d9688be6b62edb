import Hynergy.World.WorldRun

/-!
# Subscriptions in a run

The ids of the subscriptions of a world ascend, and each is new. A command drops those of the
device that it removes, and no others.
-/

namespace Hynergy

variable {F : Type}

namespace WorldCommand

/-- The devices that a command removes. -/
def removedDevices : WorldCommand F → List Nat
  | .removeDevice device => [device.get]
  | _ => []

/-- What a command does to subscriptions. -/
def onSubscriptions : WorldCommand F → SubscriptionRegistry → SubscriptionRegistry
  | .removeDevice device, subscriptions => subscriptions.removeDevice device
  | _, subscriptions => subscriptions

end WorldCommand

namespace SubscriptionRegistry

/-- The ids with their devices. -/
def keys (self : SubscriptionRegistry) : List (Nat × Nat) :=
  self.subscriptions.map fun subscription => (subscription.id.get, subscription.observer.device.get)

/-- The ids ascend, and the next one lies above them. -/
structure Ascending (registry : SubscriptionRegistry) : Prop where
  sorted : registry.subscriptions.Pairwise fun earlier later => earlier.id.get < later.id.get
  next : ∀ next, registry.nextId = some next → 0 < next ∧ next < 2 ^ 32 ∧ ∀ key ∈ registry.keys, key.1 < next

variable {self : SubscriptionRegistry}

theorem mem_keys {key : Nat × Nat} : key ∈ self.keys ↔
    ∃ subscription ∈ self.subscriptions, subscription.id.get = key.1 ∧ subscription.observer.device.get = key.2 := by
  unfold keys
  rw [List.mem_map]
  constructor
  · rintro ⟨subscription, member, rfl⟩
    exact ⟨subscription, member, rfl, rfl⟩
  · rintro ⟨subscription, member, sameId, sameDevice⟩
    exact ⟨subscription, member, Prod.ext sameId sameDevice⟩

/-- Fewer subscriptions of the same registry. -/
theorem Ascending.sublist (h : self.Ascending) {subscriptions : List ObserverSubscription}
    (sub : subscriptions.Sublist self.subscriptions) : Ascending { self with subscriptions } := by
  refine ⟨h.sorted.sublist sub, fun next known => ?_⟩
  obtain ⟨pos, fits, above⟩ := h.next next known
  exact ⟨pos, fits, fun key member => above key ((sub.map _).subset member)⟩

theorem Ascending.removeDevice (h : self.Ascending) (device : DeviceId) : (self.removeDevice device).Ascending :=
  h.sublist List.filter_sublist

theorem removeDevice_keys (device : DeviceId) :
    (self.removeDevice device).keys = self.keys.filter fun key => decide (key.2 ≠ device.get) := by
  unfold keys removeDevice
  rw [List.filter_map]
  congr 1
  refine List.filter_congr fun subscription _ => ?_
  show decide (subscription.observer.device ≠ device) = decide (subscription.observer.device.get ≠ device.get)
  rw [decide_eq_decide, not_iff_not]
  exact ⟨congrArg _, NonZeroId.ext'⟩

/-- An id is given out once. -/
theorem insert_cases (h : self.Ascending) (observer : DeviceObserver) (partition : DevicePartitionId) :
    self.insert observer partition = some (none, self) ∨
      ∃ id after, self.insert observer partition = some (some id, after) ∧ after.Ascending ∧
        after.keys = self.keys ++ [(id.get, observer.device.get)] ∧ self.nextId = some id.get ∧
        ∀ next, after.nextId = some next → next = id.get + 1 := by
  unfold insert
  cases known : self.nextId with
  | none => exact Or.inl rfl
  | some raw =>
    obtain ⟨pos, fits, above⟩ := h.next raw known
    have made : nonZeroId? raw = some (⟨raw, pos, fits⟩ : SubscriptionId) := by
      rw [nonZeroId?, dif_pos ⟨pos, fits⟩]
    refine Or.inr ⟨⟨raw, pos, fits⟩, _, congrArg (Option.bind · _) made, ⟨?_, ?_⟩, ?_, rfl, ?_⟩
    · refine List.pairwise_append.mpr ⟨h.sorted, List.pairwise_singleton _ _, ?_⟩
      intro earlier member later last
      obtain rfl := List.mem_singleton.mp last
      exact above (earlier.id.get, earlier.observer.device.get) (mem_keys.mpr ⟨earlier, member, rfl, rfl⟩)
    · intro next stepped
      have stepped : checkedSucc raw = some next := stepped
      unfold checkedSucc at stepped
      split at stepped
      · obtain rfl := Option.some.inj stepped
        refine ⟨by omega, by assumption, fun key member => ?_⟩
        rw [keys, List.map_append] at member
        rcases List.mem_append.mp member with old | last
        · have := above key old
          omega
        · obtain rfl := List.mem_singleton.mp last
          exact Nat.lt_succ_self raw
      · cases stepped
    · exact List.map_append
    · intro next stepped
      have stepped : checkedSucc raw = some next := stepped
      unfold checkedSucc at stepped
      split at stepped
      · exact (Option.some.inj stepped).symm
      · cases stepped

/-- A subscription that is there is taken out. -/
theorem remove_cases (h : self.Ascending) (id : SubscriptionId) :
    (self.remove id = (false, self) ∧ ∀ key ∈ self.keys, key.1 ≠ id.get) ∨
      ∃ after, self.remove id = (true, after) ∧ after.Ascending ∧ after.nextId = self.nextId ∧
        (∃ device, (id.get, device) ∈ self.keys) ∧
        ∀ key, key ∈ after.keys ↔ key ∈ self.keys ∧ key.1 ≠ id.get := by
  unfold remove
  cases found : self.subscriptions.findIdx? (·.id = id) with
  | none =>
    refine Or.inl ⟨rfl, fun key member same => ?_⟩
    obtain ⟨subscription, inside, here, -⟩ := mem_keys.mp member
    have differs := List.findIdx?_eq_none_iff.mp found subscription inside
    exact absurd (NonZeroId.ext' (here.trans same)) (by simpa using differs)
  | some index =>
    obtain ⟨inside, here, -⟩ := List.findIdx?_eq_some_iff_getElem.mp found
    have here : self.subscriptions[index].id = id := by simpa using here
    refine Or.inr ⟨_, rfl, h.sublist (List.eraseIdx_sublist _ _), rfl,
      ⟨_, mem_keys.mpr ⟨_, List.getElem_mem inside, congrArg _ here, rfl⟩⟩, fun key => ?_⟩
    rw [mem_keys, mem_keys]
    constructor
    · rintro ⟨subscription, member, sameId, sameDevice⟩
      obtain ⟨other, different, elsewhere, rfl⟩ := List.mem_eraseIdx_iff_getElem.mp member
      refine ⟨⟨_, List.getElem_mem different, sameId, sameDevice⟩, fun same => ?_⟩
      have order := List.pairwise_iff_getElem.mp h.sorted
      rcases Nat.lt_or_gt_of_ne elsewhere with less | greater
      · have := order _ _ different inside less
        rw [here] at this
        omega
      · have := order _ _ inside different greater
        rw [here] at this
        omega
    · rintro ⟨⟨subscription, member, sameId, sameDevice⟩, different⟩
      obtain ⟨other, bound, rfl⟩ := List.getElem_of_mem member
      refine ⟨_, List.mem_eraseIdx_iff_getElem.mpr ⟨other, bound, ?_, rfl⟩, sameId, sameDevice⟩
      rintro rfl
      rw [here] at sameId
      exact different sameId.symm

end SubscriptionRegistry

namespace Stores

open Relation
open SubscriptionRegistry (Ascending)

variable {registry : DefinitionRegistry F} {self after : Stores F}

/-! ### Commands -/

/-- Where the call returns, the subscriptions are these. -/
def Subscribed {α : Type} (subscriptions : SubscriptionRegistry) (outcome : Outcome (Stores F) NetworkModelError α) :
    Prop := outcome.Meets True (fun _ after => after.subscriptions = subscriptions) fun _ _ => True

theorem Subscribed.then {α β : Type} {call : Command F α} {rest : α → Command F β}
    {middle subscriptions : SubscriptionRegistry} (first : Subscribed middle (call self))
    (second : ∀ value mid, mid.subscriptions = middle → Subscribed subscriptions (rest value mid)) :
    Subscribed subscriptions ((call >>= rest) self) :=
  Call.meets_bind (first.mono id (fun value mid same => second value mid same) fun _ _ _ => trivial)

theorem Subscribed.expect {α β : Type} {value : Option α} {rest : α → Command F β} {subscriptions : SubscriptionRegistry}
    (next : ∀ v, Subscribed subscriptions (rest v self)) : Subscribed subscriptions ((Call.expect value >>= rest) self) :=
  Call.meets_expect trivial fun v _ => next v

variable {subscriptions : SubscriptionRegistry} (same : self.subscriptions = subscriptions)

include same

theorem onNetwork_subscribed {α : Type} (call : Call (Network F) NetworkModelError α) :
    Subscribed subscriptions (onNetwork call self) := by
  unfold onNetwork Call.zoom
  cases call self.network with
  | ok value network => exact same
  | err error network => exact trivial
  | panic => exact trivial

theorem retopologize_subscribed (edit : Network F → DerivedTopology → Option DerivedTopology) :
    Subscribed subscriptions (retopologize edit self) := by
  unfold retopologize
  rw [Call.get_bind]
  exact .expect fun _ => same

theorem retraverse_subscribed (edit : Network F → DerivedTopology → TraversalScratch →
    Option (DerivedTopology × TraversalScratch)) : Subscribed subscriptions (retraverse edit self) := by
  unfold retraverse
  rw [Call.get_bind]
  exact .expect fun _ => same

theorem markMoved_subscribed (devices : List DeviceId) : Subscribed subscriptions (markMoved devices self) := by
  unfold markMoved
  induction devices generalizing self with
  | nil => exact same
  | cons device devices ih => exact .then (retopologize_subscribed same _) fun _ _ same => ih same

omit same

variable [F64 F]

/-- The removal of a device takes its subscriptions along; every other command leaves them. -/
theorem applyCommand_subscribed (command : WorldCommand F) :
    Subscribed (command.onSubscriptions self.subscriptions) (applyCommand registry command self) := by
  cases command with
  | addWire wire => exact .then (onNetwork_subscribed rfl _) fun _ _ same => retopologize_subscribed same _
  | connectWires wireA wireB => exact .then (onNetwork_subscribed rfl _) fun _ _ same => retopologize_subscribed same _
  | attachTerminal wire device terminal =>
    exact .then (onNetwork_subscribed rfl _) fun _ _ same => retopologize_subscribed same _
  | setDeviceParameter device parameter value =>
    exact .then (onNetwork_subscribed rfl _) fun _ _ same => retopologize_subscribed same _
  | removeWire wire => exact .then (onNetwork_subscribed rfl _) fun _ _ same => retraverse_subscribed same _
  | disconnectWires wireA wireB => exact .then (onNetwork_subscribed rfl _) fun _ _ same => retraverse_subscribed same _
  | detachTerminal wire device terminal =>
    exact .then (onNetwork_subscribed rfl _) fun _ _ same => retraverse_subscribed same _
  | addDevice device definition =>
    refine .then (onNetwork_subscribed rfl _) fun modelInsert mid same => ?_
    refine .expect fun definition => ?_
    rw [Call.get_bind]
    refine .expect fun stateInsert => .expect fun topologyInsert => ?_
    refine .then (onNetwork_subscribed same _) fun insert next same => ?_
    rw [Call.get_bind]
    refine .expect fun physicalState => ?_
    rw [Call.set_bind]
    have same : ({ next with physicalState } : Stores F).subscriptions = self.subscriptions := same
    exact retopologize_subscribed same _
  | removeDevice device =>
    show Subscribed _ (Stores.removeDevice registry device self)
    unfold Stores.removeDevice
    rw [Call.get_bind]
    refine .expect fun topologyRemoval => .then (onNetwork_subscribed rfl _) fun removal mid same => ?_
    rw [Call.get_bind]
    refine .expect fun physicalState => ?_
    rw [Call.set_bind]
    have same : ({ mid with physicalState } : Stores F).subscriptions = self.subscriptions := same
    refine .then (retraverse_subscribed same _) fun _ next same => ?_
    refine .then (markMoved_subscribed same _) fun _ last same => ?_
    cases removal.chunkRelocation with
    | none => exact congrArg (·.removeDevice device) same
    | some relocation =>
      refine Subscribed.expect fun movedDevices => ?_
      refine .then (markMoved_subscribed same _) fun _ done same => ?_
      show done.subscriptions.removeDevice device = self.subscriptions.removeDevice device
      rw [same]

theorem applyCommand_subscriptions {command : WorldCommand F} {value : Unit}
    (run : applyCommand registry command self = .ok value after) :
    after.subscriptions = command.onSubscriptions self.subscriptions := by
  have subscribed := @applyCommand_subscribed F registry self _ command
  rw [run] at subscribed
  exact subscribed

/-! ### Subscribing -/

/-- A device that is resident and has the observer is given a new subscription, or no ids are left. -/
theorem subscribeObserver_cases (ascending : self.subscriptions.Ascending) (device : DeviceId)
    (observer : DefinitionObserverId) :
    subscribeObserver registry device observer self = .panic ∨
      (∃ error, subscribeObserver registry device observer self = .err error self) ∨
      ∃ id subscriptions, subscribeObserver registry device observer self = .ok id { self with subscriptions } ∧
        subscriptions.Ascending ∧ subscriptions.keys = self.subscriptions.keys ++ [(id.get, device.get)] ∧
        self.subscriptions.nextId = some id.get ∧ ∀ next, subscriptions.nextId = some next → next = id.get + 1 := by
  unfold subscribeObserver
  rw [Call.get_bind]
  cases known : self.network.definitionIdOf device with
  | none => exact Or.inr (Or.inl ⟨_, Call.okOr_none_bind _⟩)
  | some definitionId =>
    rw [Call.okOr_some_bind]
    cases registry.get definitionId with
    | none => exact Or.inl (Call.bind_panic rfl)
    | some definition =>
      rw [Call.expect_some_bind]
      cases definition.observer observer with
      | none => exact Or.inr (Or.inl ⟨_, Call.okOr_none_bind _⟩)
      | some definitionObserver =>
        rw [Call.okOr_some_bind]
        rcases SubscriptionRegistry.insert_cases ascending ⟨device, observer⟩ definitionObserver.partition with
          full | ⟨id, subscriptions, inserted, ascends, keys, next⟩
        · rw [full, Call.expect_some_bind]
          exact Or.inr (Or.inl ⟨_, rfl⟩)
        · rw [inserted, Call.expect_some_bind]
          exact Or.inr (Or.inr ⟨id, subscriptions, rfl, ascends, keys, next⟩)

omit [F64 F] in
theorem unsubscribe_cases (ascending : self.subscriptions.Ascending) (subscription : SubscriptionId) :
    (unsubscribe subscription self = .err (.unknownSubscription subscription) self ∧
      ∀ key ∈ self.subscriptions.keys, key.1 ≠ subscription.get) ∨
    ∃ subscriptions, unsubscribe subscription self = .ok () { self with subscriptions } ∧ subscriptions.Ascending ∧
      subscriptions.nextId = self.subscriptions.nextId ∧
      ∀ key, key ∈ subscriptions.keys ↔ key ∈ self.subscriptions.keys ∧ key.1 ≠ subscription.get := by
  unfold unsubscribe
  rw [Call.get_bind]
  rcases SubscriptionRegistry.remove_cases ascending subscription with
    ⟨absent, none'⟩ | ⟨subscriptions, removed, ascends, next, -, keys⟩
  · rw [absent]
    exact Or.inl ⟨rfl, none'⟩
  · rw [removed]
    exact Or.inr ⟨subscriptions, rfl, ascends, next, keys⟩

/-! ### Ticks -/

omit [F64 F] in
theorem publish_keys (published : ObserverSubscription → Option PublishedObservation) (self : Stores F) :
    (publish published self).subscriptions.keys = self.subscriptions.keys := by
  unfold publish SubscriptionRegistry.keys
  rw [List.map_map]
  refine List.map_congr_left fun subscription _ => ?_
  show _ = (subscription.id.get, subscription.observer.device.get)
  rw [Function.comp_apply]
  split <;> rfl

omit [F64 F] in
theorem publish_ascending (published : ObserverSubscription → Option PublishedObservation)
    (ascending : self.subscriptions.Ascending) : (publish published self).subscriptions.Ascending := by
  constructor
  · refine List.pairwise_map.mpr (ascending.sorted.imp fun less => ?_)
    split <;> split <;> exact less
  · intro next known
    rw [publish_keys]
    exact ascending.next next known

omit [F64 F] in
theorem commitOutputs_subscriptions (outputs : List (StateOutput F)) : (commitOutputs outputs self).Meets True
    (fun _ after => after.subscriptions = self.subscriptions) fun _ after => after.subscriptions = self.subscriptions := by
  unfold commitOutputs
  rw [Call.get_bind]
  refine Call.meets_expect trivial fun validated _ => ?_
  cases validated with
  | error e => exact rfl
  | ok =>
    rw [Call.ofExcept_ok_bind]
    exact Call.meets_expect trivial fun scattered _ => Call.meets_expect trivial fun physicalState _ => rfl

omit [F64 F] in
/-- A tick keeps the ids, and only publishes if it returns. -/
theorem tick_subscriptions (answers : TickAnswers F) (left : (tick answers self).Leaves after) :
    after.subscriptions = self.subscriptions ∨
      after.subscriptions = (publish answers.published self).subscriptions := by
  unfold tick at left
  by_cases synced : answers.synced = false
  · rw [Call.rejectIf_bind_pos synced] at left
    rw [left.of_err rfl]
    exact Or.inl rfl
  rw [Call.rejectIf_bind_neg synced, Call.modify_bind] at left
  by_cases solved : answers.solved = false
  · rw [Call.rejectIf_bind_pos solved] at left
    rw [left.of_err rfl]
    exact Or.inl rfl
  rw [Call.rejectIf_bind_neg solved] at left
  have committed := @commitOutputs_subscriptions _ { self with derivedTopology := self.derivedTopology.clearInvalidation }
    answers.outputs
  cases run : commitOutputs answers.outputs
      { self with derivedTopology := self.derivedTopology.clearInvalidation } with
  | ok value middle =>
    rw [Call.bind_ok run] at left
    rw [run] at committed
    have same : middle.subscriptions = self.subscriptions := committed
    rw [left.of_ok rfl]
    refine Or.inr ?_
    unfold publish
    rw [same]
  | err error middle =>
    rw [Call.bind_err run] at left
    rw [run] at committed
    rw [left.of_err rfl]
    exact Or.inl committed
  | panic =>
    rw [Call.bind_panic run] at left
    rcases left with ⟨_, wrong⟩ | ⟨_, wrong⟩ <;> cases wrong

/-! ### Runs -/

theorem WorldReached.ascending (h : WorldReached registry self) : self.subscriptions.Ascending := by
  obtain ⟨start, reached, run⟩ := h
  suffices ∀ state, ReflTransGen WorldStep (start, ({} : Stores F)) state →
      state.1.Reached ∧ Sound state.1 state.2 ∧ state.2.subscriptions.Ascending from (this _ run).2.2
  intro state run
  induction run with
  | refl =>
    refine ⟨reached, .empty start, List.Pairwise.nil, fun next known => ?_⟩
    obtain rfl := Option.some.inj known
    exact ⟨by decide, by decide, fun key none' => (List.not_mem_nil none').elim⟩
  | tail _ step ih =>
    obtain ⟨known, sound⟩ := step.sound ih.1 ih.2.1
    refine ⟨known, sound, ?_⟩
    cases step with
    | register => exact ih.2.2
    | command command leaves =>
      rcases leaves with ⟨value, ran⟩ | ⟨error, ran⟩
      · rw [applyCommand_subscriptions ran]
        unfold WorldCommand.onSubscriptions
        split
        · exact ih.2.2.removeDevice _
        · exact ih.2.2
      · have meets := applyCommand_meets ih.1.partitioned ih.2.1 command
        rw [ran] at meets
        rcases meets.2.1 with rfl | ⟨-, _, rfl⟩ <;> exact ih.2.2
    | tick answers leaves =>
      rcases tick_subscriptions answers leaves with same | same
      · rw [same]
        exact ih.2.2
      · rw [same]
        exact publish_ascending _ ih.2.2
    | @subscribe registry stores after device observer leaves =>
      rcases @subscribeObserver_cases _ registry _ _ ih.2.2 device observer with
        panics | ⟨error, fails⟩ | ⟨id, subscriptions, returns, ascends, -⟩
      · rw [panics] at leaves
        rcases leaves with ⟨_, wrong⟩ | ⟨_, wrong⟩ <;> cases wrong
      · rw [leaves.of_err fails]
        exact ih.2.2
      · rw [leaves.of_ok returns]
        exact ascends
    | unsubscribe subscription leaves =>
      rcases unsubscribe_cases ih.2.2 subscription with ⟨fails, -⟩ | ⟨subscriptions, returns, ascends, -⟩
      · rw [leaves.of_err fails]
        exact ih.2.2
      · rw [leaves.of_ok returns]
        exact ascends

end Stores

end Hynergy
