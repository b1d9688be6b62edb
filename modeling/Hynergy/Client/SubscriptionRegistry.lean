import Mathlib.Data.List.Nodup
import Hynergy.Client.ElectricalSystem

/-!
# The registry of subscriptions

Every active subscription is registered, and the registered ones that are not active are those whose removal
is deferred.
-/

namespace Hynergy.ObservationSubscriptionRegistry

/-- The registry with a list of deferred removals. -/
structure Sound (registry : ObservationSubscriptionRegistry) (deferred : List SubscriptionId) : Prop where
  unique : (registry.subscriptions.map Prod.fst).Nodup
  known : ∀ id subscription, (id, subscription) ∈ registry.subscriptions →
    ∃ object, registry.objects[subscription]? = some object ∧ object.nativeId = id ∧ object.listener = true
  registered : ∀ subscription object, registry.objects[subscription]? = some object → object.active = true →
    (object.nativeId, subscription) ∈ registry.subscriptions
  inactive : ∀ id, id ∈ deferred ↔ ∃ subscription object, (id, subscription) ∈ registry.subscriptions ∧
    registry.objects[subscription]? = some object ∧ object.active = false
  once : deferred.Nodup

/-- An active subscription, as its native id and its device. -/
def ActiveKey (self : ObservationSubscriptionRegistry) (key : Nat × Nat) : Prop :=
  ∃ (subscription : Nat) (object : ObservationSubscription), self.objects[subscription]? = some object ∧
    object.active = true ∧ object.nativeId.get = key.1 ∧ object.deviceId.toNat = key.2

/-- The objects are the same, but for what is active and which listeners are held. -/
def SameObjects (self after : ObservationSubscriptionRegistry) : Prop :=
  ∀ (subscription : Nat) (object : ObservationSubscription), after.objects[subscription]? = some object →
    ∃ before : ObservationSubscription, self.objects[subscription]? = some before ∧ object.nativeId = before.nativeId

variable {self : ObservationSubscriptionRegistry} {deferred : List SubscriptionId} {id : SubscriptionId}
  {subscription other : Nat} {object : ObservationSubscription}

theorem Sound.reference (h : self.Sound deferred) (entry : (id, subscription) ∈ self.subscriptions)
    (entry' : (id, other) ∈ self.subscriptions) : subscription = other := by
  have same : (id, subscription) = (id, other) := List.inj_on_of_nodup_map h.unique entry entry' rfl
  exact congrArg Prod.snd same

theorem Sound.get (h : self.Sound deferred) (entry : (id, subscription) ∈ self.subscriptions) :
    self.get id = some subscription := by
  cases found : self.get id with
  | none =>
    have differs := List.lookup_eq_none_iff.mp found _ entry
    simp at differs
  | some other =>
    obtain ⟨first, rest, split, -⟩ := List.lookup_eq_some_iff.mp found
    have entry' : (id, other) ∈ self.subscriptions := by
      rw [split]
      exact List.mem_append_right _ (List.mem_cons_self ..)
    rw [h.reference entry entry']

theorem entry_of_get (found : self.get id = some subscription) : (id, subscription) ∈ self.subscriptions := by
  obtain ⟨first, rest, split, -⟩ := List.lookup_eq_some_iff.mp found
  rw [split]
  exact List.mem_append_right _ (List.mem_cons_self ..)

theorem dereference_run (there : self.objects[subscription]? = some object) :
    dereference subscription self = .ok object self := by
  unfold dereference
  rw [Call.get_bind, there, Call.expect_some]

/-! ### Retiring a subscription -/

/-- An active subscription is made inactive, now or at the end of the publication. -/
structure Retired (before : ObservationSubscriptionRegistry) (id : SubscriptionId) (after : ObservationSubscriptionRegistry) :
    Prop where
  sound : after.Sound after.deferredRemovals
  publishing : after.publishing = before.publishing
  idle : after.publishing = false → after.deferredRemovals = []
  objects : before.SameObjects after
  active : ∀ key, after.ActiveKey key ↔ before.ActiveKey key ∧ key.1 ≠ id.get
  entries : ∀ entry, entry ∈ after.subscriptions ↔ entry ∈ before.subscriptions ∧ (before.publishing = true ∨ entry.1 ≠ id)

theorem objects_modify {f : ObservationSubscription → ObservationSubscription}
    (there : self.objects[subscription]? = some object) (r : Nat) :
    (self.objects.modify subscription f)[r]? = if r = subscription then some (f object) else self.objects[r]? := by
  rw [List.getElem?_modify]
  split
  · rename_i same
    rw [if_pos same.symm, ← same, there]
    rfl
  · rename_i differ
    rw [if_neg (Ne.symm differ)]
    simp

/-- After a change of one object that keeps its id and makes it inactive, no other is less active. -/
theorem Sound.active_iff (h : self.Sound deferred) (entry : (id, subscription) ∈ self.subscriptions)
    {after : ObservationSubscriptionRegistry} {changed : ObservationSubscription}
    (objects : ∀ r, after.objects[r]? = if r = subscription then some changed else self.objects[r]?)
    (inactive : changed.active = false) (key : Nat × Nat) :
    after.ActiveKey key ↔ self.ActiveKey key ∧ key.1 ≠ id.get := by
  constructor
  · rintro ⟨r, found, there, active, sameId, sameDevice⟩
    rw [objects] at there
    split at there
    · obtain rfl := Option.some.inj there
      cases inactive.symm.trans active
    · rename_i differ
      refine ⟨⟨r, found, there, active, sameId, sameDevice⟩, fun same => differ ?_⟩
      have named : found.nativeId = id := NonZeroId.ext' (sameId.trans same)
      exact h.reference (named ▸ h.registered r found there active) entry
  · rintro ⟨⟨r, found, there, active, sameId, sameDevice⟩, away⟩
    refine ⟨r, found, ?_, active, sameId, sameDevice⟩
    rw [objects, if_neg, there]
    rintro rfl
    obtain ⟨object, same, named, -⟩ := h.known id r entry
    rw [there] at same
    obtain rfl := Option.some.inj same
    exact away (named ▸ sameId.symm)

/-- One object is made inactive, and its entry stays for as long as a publication lasts. -/
theorem Sound.retired (h : self.Sound self.deferredRemovals) (idle : self.publishing = false → self.deferredRemovals = [])
    (entry : (id, subscription) ∈ self.subscriptions) (there : self.objects[subscription]? = some object)
    (active : object.active = true) {after : ObservationSubscriptionRegistry} {changed : ObservationSubscription}
    (objects : ∀ r, after.objects[r]? = if r = subscription then some changed else self.objects[r]?)
    (named : changed.nativeId = object.nativeId) (inactive : changed.active = false)
    (listens : self.publishing = true → changed.listener = true)
    (sub : (after.subscriptions.map Prod.fst).Nodup)
    (entries : ∀ entry, entry ∈ after.subscriptions ↔
      entry ∈ self.subscriptions ∧ (self.publishing = true ∨ entry.1 ≠ id))
    (deferred : after.deferredRemovals = if self.publishing = true then self.deferredRemovals ++ [id] else [])
    (publishing : after.publishing = self.publishing) : Retired self id after := by
  obtain ⟨_, same, isNamed, held⟩ := h.known id subscription entry
  obtain rfl := Option.some.inj (there.symm.trans same)
  -- an entry that is there afterwards is that of the object, or its object is unchanged
  have object_of : ∀ id' r, (id', r) ∈ after.subscriptions → r = subscription ∧ id' = id ∧ self.publishing = true ∨
      r ≠ subscription ∧ (id', r) ∈ self.subscriptions := by
    intro id' r entry'
    obtain ⟨old, keeps⟩ := (entries _).mp entry'
    by_cases here : r = subscription
    · obtain ⟨_, same', named', -⟩ := h.known id' r old
      rw [here, there] at same'
      obtain rfl := Option.some.inj same'
      have isId : id' = id := named'.symm.trans isNamed
      exact Or.inl ⟨here, isId, keeps.resolve_right fun away => away isId⟩
    · exact Or.inr ⟨here, old⟩
  have notYet : id ∉ self.deferredRemovals := by
    intro waits
    obtain ⟨r, found, entry', there', off⟩ := (h.inactive id).mp waits
    obtain rfl := h.reference entry entry'
    rw [there] at there'
    obtain rfl := Option.some.inj there'
    cases active.symm.trans off
  refine ⟨⟨sub, ?_, ?_, ?_, ?_⟩, publishing, ?_, ?_, h.active_iff entry objects inactive, entries⟩
  · intro id' r entry'
    rcases object_of id' r entry' with ⟨rfl, rfl, isPublishing⟩ | ⟨away, old⟩
    · exact ⟨changed, by rw [objects, if_pos rfl], named.trans isNamed, listens isPublishing⟩
    · rw [objects, if_neg away]
      exact h.known id' r old
  · intro r found there' on
    rw [objects] at there'
    split at there'
    · obtain rfl := Option.some.inj there'
      cases inactive.symm.trans on
    · rename_i away
      have old := h.registered r found there' on
      refine (entries _).mpr ⟨old, Or.inr fun same => away ?_⟩
      have same : found.nativeId = id := same
      exact h.reference (same ▸ old) entry
  · intro id'
    rw [deferred]
    by_cases isPublishing : self.publishing = true
    · rw [if_pos isPublishing, List.mem_append, List.mem_singleton]
      constructor
      · rintro (waits | rfl)
        · obtain ⟨r, found, entry', there', off⟩ := (h.inactive id').mp waits
          have away : r ≠ subscription := by
            rintro rfl
            rw [there] at there'
            obtain rfl := Option.some.inj there'
            cases active.symm.trans off
          exact ⟨r, found, (entries _).mpr ⟨entry', Or.inl isPublishing⟩, by rw [objects, if_neg away, there'], off⟩
        · exact ⟨subscription, changed, (entries _).mpr ⟨entry, Or.inl isPublishing⟩, by rw [objects, if_pos rfl], inactive⟩
      · rintro ⟨r, found, entry', there', off⟩
        rcases object_of id' r entry' with ⟨-, same, -⟩ | ⟨away, old⟩
        · exact Or.inr same
        · rw [objects, if_neg away] at there'
          exact Or.inl ((h.inactive id').mpr ⟨r, found, old, there', off⟩)
    · rw [if_neg isPublishing]
      refine iff_of_false List.not_mem_nil ?_
      rintro ⟨r, found, entry', there', off⟩
      rcases object_of id' r entry' with ⟨-, -, wrong⟩ | ⟨away, old⟩
      · exact isPublishing wrong
      · rw [objects, if_neg away] at there'
        have waits := (h.inactive id').mpr ⟨r, found, old, there', off⟩
        rw [idle (Bool.eq_false_iff.mpr isPublishing)] at waits
        cases waits
  · rw [deferred]
    split
    · refine List.nodup_append.mpr ⟨h.once, List.nodup_singleton id, ?_⟩
      intro x waits y last same
      obtain rfl := List.mem_singleton.mp last
      exact notYet (same ▸ waits)
    · exact List.nodup_nil
  · intro still
    rw [deferred, if_neg (by rw [← publishing, still]; decide)]
  · intro r found there'
    rw [objects] at there'
    split at there'
    · rename_i here
      obtain rfl := Option.some.inj there'
      exact ⟨object, here ▸ there, named⟩
    · exact ⟨found, there', rfl⟩

theorem retire_run (h : self.Sound self.deferredRemovals) (idle : self.publishing = false → self.deferredRemovals = [])
    (entry : (id, subscription) ∈ self.subscriptions) (there : self.objects[subscription]? = some object)
    (active : object.active = true) : ∃ after, retire id subscription self = .ok () after ∧ Retired self id after := by
  obtain ⟨_, same, -, listens⟩ := h.known id subscription entry
  obtain rfl := Option.some.inj (there.symm.trans same)
  by_cases publishing : self.publishing = true
  · let after : ObservationSubscriptionRegistry := { self with
      objects := self.objects.modify subscription ({ · with active := false })
      deferredRemovals := self.deferredRemovals ++ [id] }
    have run : retire id subscription self = .ok () after := by
      unfold retire deactivate
      rw [Call.modify_bind, Call.get_bind]
      exact congrFun (if_pos publishing) _
    refine ⟨after, run, h.retired idle entry there active (objects_modify there) rfl rfl (fun _ => listens) h.unique
      (fun other => ?_) ?_ rfl⟩
    · exact (and_iff_left (Or.inl publishing)).symm
    · exact (if_pos publishing).symm
  · let after : ObservationSubscriptionRegistry := { self with
      objects := (self.objects.modify subscription ({ · with active := false })).modify subscription ({ · with listener := false })
      subscriptions := self.subscriptions.filter (·.1 ≠ id) }
    have run : retire id subscription self = .ok () after := by
      unfold retire deactivate
      rw [Call.modify_bind, Call.get_bind]
      exact congrFun (if_neg publishing) _
    have objects : ∀ r, after.objects[r]? =
        if r = subscription then some { object with active := false, listener := false } else self.objects[r]? := by
      intro r
      have first := objects_modify (f := ({ · with active := false })) there
      have second := @objects_modify { self with objects := self.objects.modify subscription ({ · with active := false }) }
        subscription _ ({ · with listener := false }) ((first subscription).trans (if_pos rfl)) r
      rw [second]
      split
      · rfl
      · rename_i away
        exact (first r).trans (if_neg away)
    refine ⟨after, run, h.retired idle entry there active objects rfl rfl (fun on => (publishing on).elim)
      (h.unique.sublist (List.filter_sublist.map _)) (fun other => ?_) ?_ rfl⟩
    · rw [List.mem_filter, decide_eq_true_iff]
      exact and_congr_right fun _ => (or_iff_right publishing).symm
    · rw [if_neg publishing]
      exact idle (Bool.eq_false_iff.mpr publishing)

/-! ### The operations -/

/-- An active subscription is removed. -/
theorem remove_run (h : self.Sound self.deferredRemovals) (idle : self.publishing = false → self.deferredRemovals = [])
    (there : self.objects[subscription]? = some object) (active : object.active = true) :
    ∃ after, remove subscription self = .ok () after ∧ Retired self object.nativeId after := by
  have entry := h.registered subscription object there active
  unfold remove
  rw [Call.bind_ok (dereference_run there), Call.get_bind, Call.rejectIf_bind_neg (not_not.mpr (h.get entry)),
    Call.rejectIf_bind_neg (by simp [active])]
  exact retire_run h idle entry there active

/-- A new subscription is registered under an id that no entry has. -/
theorem add_run (h : self.Sound self.deferredRemovals) {nativeId : SubscriptionId} {deviceId : JavaInt}
    (fresh : ∀ entry ∈ self.subscriptions, entry.1 ≠ nativeId) :
    let constructed : ObservationSubscriptionRegistry := { self with objects := self.objects ++ [{ nativeId, deviceId }] }
    ∃ after, add self.objects.length constructed = .ok () after ∧ after.Sound after.deferredRemovals ∧
      after.publishing = self.publishing ∧ after.deferredRemovals = self.deferredRemovals ∧
      after.objects = self.objects ++ [({ nativeId, deviceId } : ObservationSubscription)] ∧ self.subscriptions ⊆ after.subscriptions ∧
      ∀ key, after.ActiveKey key ↔ self.ActiveKey key ∨ key = (nativeId.get, deviceId.toNat) := by
  intro constructed
  let after : ObservationSubscriptionRegistry := { constructed with
    subscriptions := self.subscriptions ++ [(nativeId, self.objects.length)] }
  have last : constructed.objects[self.objects.length]? = some ({ nativeId, deviceId } : ObservationSubscription) :=
    List.getElem?_concat_length ..
  have absent : self.get nativeId = none := by
    refine List.lookup_eq_none_iff.mpr fun entry member => ?_
    have away := fresh entry member
    simpa using Ne.symm away
  have run : add self.objects.length constructed = .ok () after := by
    unfold add
    rw [Call.bind_ok (dereference_run last), Call.rejectIf_bind_neg (by simp), Call.get_bind]
    refine (Call.rejectIf_bind_neg ?_ _).trans rfl
    show ¬ (self.get nativeId).isSome = true
    rw [absent]
    decide
  -- an object afterwards is an earlier one, or the new one
  have object_cases : ∀ {r : Nat} {found : ObservationSubscription}, after.objects[r]? = some found →
      self.objects[r]? = some found ∨ r = self.objects.length ∧ found = { nativeId, deviceId } := by
    intro r found there
    have there : (self.objects ++ [({ nativeId, deviceId } : ObservationSubscription)])[r]? = some found := there
    by_cases inside : r < self.objects.length
    · rw [List.getElem?_append_left inside] at there
      exact Or.inl there
    · have bound := (List.getElem?_eq_some_iff.mp there).1
      rw [List.length_append, List.length_singleton] at bound
      have here : r = self.objects.length := by omega
      rw [here, List.getElem?_concat_length] at there
      exact Or.inr ⟨here, (Option.some.inj there).symm⟩
  have kept : ∀ {r : Nat} {found : ObservationSubscription}, self.objects[r]? = some found →
      after.objects[r]? = some found := by
    intro r found there
    exact (List.getElem?_append_left (List.getElem?_eq_some_iff.mp there).1).trans there
  have entry_cases : ∀ {entry : SubscriptionId × Nat}, entry ∈ after.subscriptions →
      entry ∈ self.subscriptions ∨ entry = (nativeId, self.objects.length) := by
    intro entry member
    exact (List.mem_append.mp member).imp_right List.mem_singleton.mp
  refine ⟨after, run, ⟨?_, ?_, ?_, ?_, h.once⟩, rfl, rfl, rfl, List.subset_append_left _ _, ?_⟩
  · show ((self.subscriptions ++ [(nativeId, self.objects.length)]).map Prod.fst).Nodup
    rw [List.map_append, List.nodup_append]
    refine ⟨h.unique, List.nodup_singleton _, ?_⟩
    intro x member y single same
    obtain rfl := List.mem_singleton.mp single
    obtain ⟨entry, inside, rfl⟩ := List.mem_map.mp member
    exact fresh entry inside same
  · intro id r entry
    rcases entry_cases entry with old | isNew
    · obtain ⟨found, there, named, listens⟩ := h.known id r old
      exact ⟨found, kept there, named, listens⟩
    · obtain ⟨rfl, rfl⟩ := Prod.mk.inj isNew
      exact ⟨_, last, rfl, rfl⟩
  · intro r found there on
    rcases object_cases there with old | ⟨rfl, rfl⟩
    · exact List.mem_append_left _ (h.registered r found old on)
    · exact List.mem_append_right _ (List.mem_singleton.mpr rfl)
  · intro id
    constructor
    · intro waits
      obtain ⟨r, found, entry, there, off⟩ := (h.inactive id).mp waits
      exact ⟨r, found, List.mem_append_left _ entry, kept there, off⟩
    · rintro ⟨r, found, entry, there, off⟩
      rcases entry_cases entry with old | isNew
      · obtain ⟨found', there', -, -⟩ := h.known id r old
        rcases object_cases there with same | ⟨rfl, rfl⟩
        · exact (h.inactive id).mpr ⟨r, found, old, same, off⟩
        · cases off
      · obtain ⟨rfl, rfl⟩ := Prod.mk.inj isNew
        rcases object_cases there with same | ⟨-, rfl⟩
        · exact (Nat.lt_irrefl _ (List.getElem?_eq_some_iff.mp same).1).elim
        · cases off
  · intro key
    constructor
    · rintro ⟨r, found, there, on, sameId, sameDevice⟩
      rcases object_cases there with old | ⟨rfl, rfl⟩
      · exact Or.inl ⟨r, found, old, on, sameId, sameDevice⟩
      · exact Or.inr (Prod.ext sameId.symm sameDevice.symm)
    · rintro (⟨r, found, there, on, sameId, sameDevice⟩ | rfl)
      · exact ⟨r, found, kept there, on, sameId, sameDevice⟩
      · exact ⟨self.objects.length, _, last, rfl, rfl, rfl⟩

/-- What the registry keeps while operations go on. -/
structure Continues (before after : ObservationSubscriptionRegistry) : Prop where
  publishing : after.publishing = before.publishing
  objects : before.SameObjects after
  entries : before.publishing = true → before.subscriptions ⊆ after.subscriptions

theorem Continues.refl (self : ObservationSubscriptionRegistry) : Continues self self :=
  ⟨rfl, fun _ object there => ⟨object, there, rfl⟩, fun _ _ member => member⟩

theorem Continues.trans {mid after : ObservationSubscriptionRegistry} (h : Continues self mid) (h' : Continues mid after) :
    Continues self after := by
  refine ⟨h'.publishing.trans h.publishing, ?_, fun on => ?_⟩
  · intro r found there
    obtain ⟨before, there, same⟩ := h'.objects r found there
    obtain ⟨first, there, same'⟩ := h.objects r before there
    exact ⟨first, there, same.trans same'⟩
  · exact fun entry member => h'.entries (h.publishing.trans on) (h.entries on member)

theorem Retired.continues {after : ObservationSubscriptionRegistry} (h : Retired self id after) : Continues self after :=
  ⟨h.publishing, h.objects, fun on entry member => (h.entries entry).mpr ⟨member, Or.inl on⟩⟩

/-- The loop makes the active subscriptions of the device inactive, those of its entries. -/
theorem invalidate_run (deviceId : JavaInt) (entries : List (SubscriptionId × Nat)) (h : self.Sound self.deferredRemovals)
    (idle : self.publishing = false → self.deferredRemovals = []) (inside : entries ⊆ self.subscriptions)
    (distinct : (entries.map Prod.fst).Nodup) :
    ∃ after, invalidate deviceId entries self = .ok () after ∧ after.Sound after.deferredRemovals ∧
      (after.publishing = false → after.deferredRemovals = []) ∧ Continues self after ∧
      ∀ key, after.ActiveKey key ↔ self.ActiveKey key ∧
        ¬ (key.2 = deviceId.toNat ∧ key.1 ∈ entries.map fun entry => entry.1.get) := by
  induction entries generalizing self with
  | nil => exact ⟨self, rfl, h, idle, .refl self, fun key => (and_iff_left fun ⟨_, none'⟩ => List.not_mem_nil none').symm⟩
  | cons entry entries ih =>
    obtain ⟨id, subscription⟩ := entry
    have first : (id, subscription) ∈ self.subscriptions := inside (List.mem_cons_self ..)
    have rest := List.nodup_cons.mp distinct
    obtain ⟨object, there, named, -⟩ := h.known id subscription first
    unfold invalidate
    rw [Call.bind_ok (dereference_run there)]
    by_cases skips : object.deviceId ≠ deviceId ∨ object.active = false
    · rw [if_pos skips]
      obtain ⟨after, run, sound, idle', continues, active⟩ := ih h idle (fun _ member => inside (List.mem_cons_of_mem _ member)) rest.2
      refine ⟨after, run, sound, idle', continues, fun key => ?_⟩
      rw [active, List.map_cons, List.mem_cons]
      refine and_congr_right fun isActive => not_congr (and_congr_right fun device => (or_iff_right ?_).symm)
      -- the entry is not an active subscription of the device
      intro same
      obtain ⟨r, found, there', on, sameId, sameDevice⟩ := isActive
      have isId : found.nativeId = id := NonZeroId.ext' (sameId.trans same)
      obtain rfl := h.reference (isId ▸ h.registered r found there' on) first
      rw [there] at there'
      obtain rfl := Option.some.inj there'
      rcases skips with otherDevice | off
      · exact otherDevice (BitVec.eq_of_toNat_eq (sameDevice.trans device))
      · cases off.symm.trans on
    · rw [if_neg skips]
      obtain ⟨sameDevice, on⟩ := not_or.mp skips
      obtain ⟨mid, retires, retired⟩ := retire_run h idle first there (by simpa using on)
      rw [Call.bind_ok retires]
      have others : entries ⊆ mid.subscriptions := by
        intro other member
        refine (retired.entries other).mpr ⟨inside (List.mem_cons_of_mem _ member), Or.inr fun same => rest.1 ?_⟩
        exact List.mem_map.mpr ⟨other, member, same⟩
      obtain ⟨after, run, sound, idle', continues, active⟩ := ih retired.sound retired.idle others rest.2
      refine ⟨after, run, sound, idle', retired.continues.trans continues, fun key => ?_⟩
      rw [active, retired.active, List.map_cons, List.mem_cons, and_assoc]
      refine and_congr_right fun isActive => ?_
      constructor
      · rintro ⟨away, rest⟩ ⟨device, same | later⟩
        · exact away same
        · exact rest ⟨device, later⟩
      · intro rest
        refine ⟨fun same => rest ⟨?_, Or.inl same⟩, fun ⟨device, later⟩ => rest ⟨device, Or.inr later⟩⟩
        -- an active subscription with the id is this one, of the device
        obtain ⟨r, found, there', isOn, sameId, isDevice⟩ := isActive
        have isId : found.nativeId = id := NonZeroId.ext' (sameId.trans same)
        obtain rfl := h.reference (isId ▸ h.registered r found there' isOn) first
        rw [there] at there'
        obtain rfl := Option.some.inj there'
        rw [← isDevice, not_not.mp sameDevice]

theorem invalidateDevice_run (h : self.Sound self.deferredRemovals)
    (idle : self.publishing = false → self.deferredRemovals = []) (deviceId : JavaInt) :
    ∃ after, invalidateDevice deviceId self = .ok () after ∧ after.Sound after.deferredRemovals ∧
      (after.publishing = false → after.deferredRemovals = []) ∧ Continues self after ∧
      ∀ key, after.ActiveKey key ↔ self.ActiveKey key ∧ key.2 ≠ deviceId.toNat := by
  obtain ⟨after, run, sound, idle', continues, active⟩ :=
    invalidate_run deviceId self.subscriptions h idle (List.Subset.refl _) h.unique
  refine ⟨after, run, sound, idle', continues, fun key => ?_⟩
  rw [active]
  refine and_congr_right fun ⟨r, found, there, on, sameId, _⟩ => not_congr (and_iff_left ?_)
  exact List.mem_map.mpr ⟨_, h.registered r found there on, sameId⟩

/-! ### The end of a publication -/

/-- The entry of an inactive subscription is taken out. -/
theorem removeDeferred_step (h : self.Sound (id :: deferred)) (entry : (id, subscription) ∈ self.subscriptions)
    (there : self.objects[subscription]? = some object) (off : object.active = false) :
    let mid : ObservationSubscriptionRegistry := { self with
      subscriptions := self.subscriptions.filter (·.1 ≠ id)
      objects := self.objects.modify subscription ({ · with listener := false }) }
    mid.Sound deferred ∧ self.SameObjects mid ∧ ∀ key, mid.ActiveKey key ↔ self.ActiveKey key := by
  intro mid
  obtain ⟨_, same, named, -⟩ := h.known id subscription entry
  obtain rfl := Option.some.inj (there.symm.trans same)
  have objects := @objects_modify self subscription object ({ · with listener := false }) there
  have here : mid.objects[subscription]? = some { object with listener := false } := (objects subscription).trans (if_pos rfl)
  have elsewhere : ∀ {r}, r ≠ subscription → mid.objects[r]? = self.objects[r]? := fun away => (objects _).trans (if_neg away)
  have entry_iff : ∀ {entry : SubscriptionId × Nat}, entry ∈ mid.subscriptions ↔ entry ∈ self.subscriptions ∧ entry.1 ≠ id := by
    intro entry
    exact List.mem_filter.trans (and_congr_right fun _ => decide_eq_true_iff)
  have away : ∀ {id' r}, (id', r) ∈ self.subscriptions → id' ≠ id → r ≠ subscription := by
    rintro id' r old differ rfl
    obtain ⟨_, same', named', -⟩ := h.known id' r old
    rw [there] at same'
    obtain rfl := Option.some.inj same'
    exact differ (named'.symm.trans named)
  have notActive : ∀ {r} {found : ObservationSubscription}, mid.objects[r]? = some found → found.active = true →
      r ≠ subscription ∧ self.objects[r]? = some found := by
    intro r found there' on
    have differ : r ≠ subscription := by
      rintro rfl
      rw [here] at there'
      obtain rfl := Option.some.inj there'
      cases off.symm.trans on
    exact ⟨differ, (elsewhere differ).symm.trans there'⟩
  have single := List.nodup_cons.mp h.once
  refine ⟨⟨h.unique.sublist (List.filter_sublist.map _), ?_, ?_, ?_, single.2⟩, ?_, fun key => ?_⟩
  · intro id' r entry'
    obtain ⟨old, differ⟩ := entry_iff.mp entry'
    rw [elsewhere (away old differ)]
    exact h.known id' r old
  · intro r found there' on
    obtain ⟨differ, before⟩ := notActive there' on
    have old := h.registered r found before on
    exact entry_iff.mpr ⟨old, fun same => differ (h.reference ((show found.nativeId = id from same) ▸ old) entry)⟩
  · intro id'
    constructor
    · intro waits
      obtain ⟨r, found, entry', there', off'⟩ := (h.inactive id').mp (List.mem_cons_of_mem _ waits)
      have differ : id' ≠ id := fun same => single.1 (same ▸ waits)
      exact ⟨r, found, entry_iff.mpr ⟨entry', differ⟩, (elsewhere (away entry' differ)).trans there', off'⟩
    · rintro ⟨r, found, entry', there', off'⟩
      obtain ⟨old, differ⟩ := entry_iff.mp entry'
      rw [elsewhere (away old differ)] at there'
      exact (List.mem_cons.mp ((h.inactive id').mpr ⟨r, found, old, there', off'⟩)).resolve_left differ
  · intro r found there'
    by_cases isHere : r = subscription
    · rw [isHere, here] at there'
      obtain rfl := Option.some.inj there'
      exact ⟨object, isHere ▸ there, rfl⟩
    · exact ⟨found, (elsewhere isHere).symm.trans there', rfl⟩
  · constructor
    · rintro ⟨r, found, there', on, sameId, sameDevice⟩
      exact ⟨r, found, (notActive there' on).2, on, sameId, sameDevice⟩
    · rintro ⟨r, found, there', on, sameId, sameDevice⟩
      refine ⟨r, found, (elsewhere ?_).trans there', on, sameId, sameDevice⟩
      rintro rfl
      rw [there] at there'
      obtain rfl := Option.some.inj there'
      cases off.symm.trans on

theorem removeDeferred_run (deferred : List SubscriptionId) (h : self.Sound deferred) :
    ∃ after, removeDeferred deferred self = .ok () after ∧ after.Sound [] ∧ self.SameObjects after ∧
      ∀ key, after.ActiveKey key ↔ self.ActiveKey key := by
  induction deferred generalizing self with
  | nil => exact ⟨self, rfl, h, (Continues.refl self).objects, fun _ => Iff.rfl⟩
  | cons id deferred ih =>
    obtain ⟨subscription, object, entry, there, off⟩ := (h.inactive id).mp (List.mem_cons_self ..)
    obtain ⟨sound, objects, active⟩ := removeDeferred_step h entry there off
    obtain ⟨after, run, ends, objects', active'⟩ := ih sound
    refine ⟨after, ?_, ends, ?_, fun key => (active' key).trans (active key)⟩
    · unfold removeDeferred
      rw [Call.get_bind, h.get entry, Call.okOr_some_bind, Call.bind_ok (dereference_run there),
        Call.rejectIf_bind_neg (by simp [off])]
      exact run
    · intro r found there'
      obtain ⟨middle, there', same⟩ := objects' r found there'
      obtain ⟨first, there', same'⟩ := objects r middle there'
      exact ⟨first, there', same.trans same'⟩

/-- After a publication the registry holds the active subscriptions. -/
theorem endPublication_run (h : self.Sound self.deferredRemovals) (publishing : self.publishing = true) :
    ∃ after, endPublication self = .ok () after ∧ after.Sound after.deferredRemovals ∧ after.deferredRemovals = [] ∧
      after.publishing = false ∧ self.SameObjects after ∧ ∀ key, after.ActiveKey key ↔ self.ActiveKey key := by
  obtain ⟨after, run, sound, objects, active⟩ := removeDeferred_run self.deferredRemovals h
  refine ⟨after.endedPublication, ?_, ⟨sound.unique, sound.known, sound.registered, sound.inactive, sound.once⟩, rfl, rfl,
    objects, active⟩
  unfold endPublication
  rw [if_neg (by simp [publishing]), run]

end Hynergy.ObservationSubscriptionRegistry
